import TacBench.Number.Binary64

/-! Sizes are given for a screen of 96 dots per inch. -/
namespace TacBench.Editor

def referenceDensity : Binary64 := .ofInt 96

def scaledSize (density size : Binary64) : Binary64 :=
  if size.isZero then .zero else size.mul (density.div referenceDensity)

end TacBench.Editor
