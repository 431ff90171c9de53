import TacBench.Proofs.Judgement

/-! What a whole run sends to the server. Whether and what it uploads is decided by the first reply,
the user's token and the tests: at most one request carries prices, and it carries those of all
tests that were passed and priced, in the order of the tests. -/
namespace TacBench.Bench

namespace Upload

/-! The address of a request is the host without what stands around it, and the path behind it. -/

/-- A path on the server, as it is put behind the host. -/
structure ServicePath (p : List Char) : Prop where
  rooted : ∃ rest, p = '/' :: rest
  plain : '#' ∉ p
  closed : ∃ rest c, p = rest ++ [c] ∧ Text.isBlank c = false ∧ c ≠ '>'

/-- What is asked of the host. -/
def base (host : List Char) : List Char :=
  let h := host.dropWhile Text.isBlank
  if "URL:".toList.isPrefixOf h then (h.drop 4).dropWhile Text.isBlank else h

variable {p : List Char}

theorem strip_append (path : ServicePath p) (h : List Char) :
    Text.strip (h ++ p) = h.dropWhile Text.isBlank ++ p := by
  obtain ⟨rest, rooted⟩ := path.rooted
  obtain ⟨init, c, closed, visible, -⟩ := path.closed
  have front : (h ++ p).dropWhile Text.isBlank = h.dropWhile Text.isBlank ++ p := by
    rw [List.dropWhile_append]
    split
    · rename_i blank
      rw [List.isEmpty_iff.mp blank, rooted, List.dropWhile_cons_of_neg (by decide),
        List.nil_append]
    · rfl
  rw [Text.strip, Text.stripBy, front, closed, ← List.append_assoc, List.reverse_append,
    List.reverse_singleton, List.singleton_append, List.dropWhile_cons_of_neg (by simp [visible])]
  simp

theorem prefix_append (path : ServicePath p) (h : List Char) :
    "URL:".toList.isPrefixOf (h ++ p) = "URL:".toList.isPrefixOf h := by
  obtain ⟨rest, rfl⟩ := path.rooted
  rw [show "URL:".toList = ['U', 'R', 'L', ':'] from rfl]
  rcases h with _ | ⟨a, _ | ⟨b, _ | ⟨c, _ | ⟨d, h⟩⟩⟩⟩ <;> simp [List.isPrefixOf]

/-- The marks around an address are not taken off, since none follows the path. -/
theorem not_wrapped (path : ServicePath p) {h rest : List Char} (opened : h ++ p = '<' :: rest) :
    rest.getLast? ≠ some '>' := by
  obtain ⟨init, c, rfl, -, other⟩ := path.closed
  intro ends
  have last : (h ++ (init ++ [c])).getLast? = some c := by simp
  rw [opened, List.getLast?_cons, ends] at last
  exact other (by simpa using last.symm)

theorem unwrapped_append (path : ServicePath p) (host : String) :
    unwrapped (host ++ String.ofList p) = String.ofList (base host.toList ++ p) := by
  unfold unwrapped base
  rw [String.toList_append, String.toList_ofList, strip_append path]
  generalize host.toList.dropWhile Text.isBlank = h
  have stripped : (if "URL:".toList.isPrefixOf (h ++ p) then Text.strip ((h ++ p).drop 4)
      else h ++ p) =
      (if "URL:".toList.isPrefixOf h then (h.drop 4).dropWhile Text.isBlank else h) ++ p := by
    rw [prefix_append path]
    split
    · rename_i url
      have long : 4 ≤ h.length := (List.isPrefixOf_iff_prefix.mp url).length_le
      rw [List.drop_append_of_le_length long, strip_append path]
    · rfl
  rw [← stripped]
  cases whole : h ++ p with
  | nil => rfl
  | cons c r =>
    by_cases opens : c = '<'
    · subst opens
      simp only [if_neg (not_wrapped path whole)]
    · simp [opens]

theorem splitFragment_append_of_plain {b : List Char} (path : ServicePath p) (plain : '#' ∉ b) :
    splitFragment (String.ofList (b ++ p)) = (String.ofList (b ++ p), "") := by
  simp [splitFragment, plain, path.plain]

theorem splitFragment_append {a b : List Char} (path : ServicePath p) (plain : '#' ∉ b) :
    splitFragment (String.ofList (a ++ '#' :: b ++ p)) =
      (String.ofList a, String.ofList (b ++ p)) := by
  have none (c : Char) (member : c ∈ (b ++ p).reverse) : (c != '#') = true := by
    rw [List.mem_reverse, List.mem_append] at member
    rw [bne_iff_ne]
    rintro rfl
    exact member.elim plain path.plain
  have fragment : (a ++ '#' :: b ++ p).reverse.takeWhile (· != '#') = (b ++ p).reverse := by
    rw [show a ++ '#' :: b ++ p = a ++ '#' :: (b ++ p) by simp, List.reverse_append,
      List.reverse_cons, List.append_assoc, List.takeWhile_append_of_pos none]
    simp
  have start : (a ++ '#' :: b ++ p).length - (b ++ p).length - 1 = a.length := by simp; omega
  simp only [splitFragment, String.toList_ofList, fragment, List.reverse_reverse, start]
  simp

theorem hasScheme_append (b rest : List Char) :
    hasScheme (String.ofList (b ++ '/' :: rest)) = hasScheme (String.ofList (b ++ ['/'])) := by
  simp only [hasScheme, String.toList_ofList, List.takeWhile_append]
  split
  · simp
  · rename_i stops
    have inside := Nat.lt_of_le_of_ne (List.takeWhile_prefix _).length_le stops
    rw [List.getElem?_append_left inside, List.getElem?_append_left inside]

/-- The host can be asked. -/
def addressable (host : String) : Bool :=
  hasScheme (splitFragment (String.ofList (base host.toList ++ ['/']))).1

theorem servicePath_root : ServicePath ['/'] :=
  ⟨⟨[], rfl⟩, by decide, ⟨[], '/', rfl, by decide, by decide⟩⟩

/-- Whether a host can be asked does not depend on the path. -/
theorem checkAddress_append (host path : String) (service : ServicePath path.toList) :
    checkAddress (host ++ path) =
      if addressable host then pure (String.ofList (base host.toList) ++ path)
      else throw (.address (String.ofList (base host.toList) ++ path)) := by
  obtain ⟨p, rfl⟩ : ∃ p, path = String.ofList p := ⟨path.toList, String.ofList_toList.symm⟩
  rw [String.toList_ofList] at service
  rw [checkAddress, unwrapped_append service, ← String.ofList_append, addressable]
  generalize base host.toList = host
  obtain ⟨rest, rooted⟩ := service.rooted
  by_cases marked : '#' ∈ host
  · obtain ⟨b, a, same, plain⟩ := List.eq_append_cons_of_mem (List.mem_reverse.mpr marked)
    rw [List.reverse_eq_iff, List.reverse_append, List.reverse_cons, List.append_assoc,
      List.singleton_append] at same
    rw [← List.mem_reverse] at plain
    have fragment : (String.ofList (b.reverse ++ p)).isEmpty = false := by simp [rooted]
    have whole : String.ofList a.reverse ++ "#" ++ String.ofList (b.reverse ++ p) =
        String.ofList (host ++ p) := by
      rw [show "#" = String.ofList ['#'] from rfl, ← String.ofList_append,
        ← String.ofList_append, same]
      simp
    rw [same, splitFragment_append service plain, splitFragment_append servicePath_root plain,
      ← same]
    simp only [fragment, whole, Bool.false_eq_true, if_false]
  · have empty : "".isEmpty = true := rfl
    rw [splitFragment_append_of_plain service marked,
      splitFragment_append_of_plain servicePath_root marked, rooted]
    simp only [hasScheme_append host rest, empty, if_true]

end Upload

/-! Requests that carry prices, and those that do not. -/

def Request.carriesPrices (q : Request) : Bool :=
  "/api/v1/benchmark-result".toList.isSuffixOf q.url.toList

/-- The requests that carried prices. -/
def Run.uploads (s : Run) : List Request := s.requests.filter Request.carriesPrices

namespace Upload

def requestTo (host path : String) (body : Json) : Request :=
  ⟨String.ofList (base host.toList) ++ path, if body.holds then some body else none⟩

/-- The next reply of the server. -/
def nextReply (s : Run) : Reply := s.replies.head?.getD (.unreachable "offline")

theorem read_eq_ok {reply : Reply} {p : Platform} {status : Int} {j : Json} :
    reply.read p = .ok (status, j) ↔ ∃ phrase body text, reply = .response status phrase body ∧
      p.passes status = true ∧ Utf8.decode body = .ok text ∧
      Json.parse p.nesting text.toList = .ok j := by
  cases reply with
  | unreachable reason => simp [Reply.read]
  | response status' phrase body =>
    constructor
    · intro given
      unfold Reply.read at given
      dsimp only at given
      split at given
      · cases given
      · rename_i passes
        split at given
        · cases given
        · rename_i text decoded
          split at given
          · rename_i parsed
            cases given
            exact ⟨phrase, body, text, rfl, by simpa using passes, decoded, parsed⟩
          · cases given
    · rintro ⟨_, _, text, ⟨⟩, passes, decoded, parsed⟩
      simp [Reply.read, passes, decoded, parsed]

theorem send_leads (path : String) (service : ServicePath path.toList) (body : Json) (s : Run) :
    Leads (send path body) s
      (fun f u => addressable s.uploader.host = false ∧ u = s ∧ isBroken f = false ∨
        u = { s with replies := s.replies.drop 1,
                     requests := s.requests ++ [requestTo s.uploader.host path body] } ∧
          (nextReply s).read s.platform = .error f)
      (fun result u => addressable s.uploader.host = true ∧
        u = { s with replies := s.replies.drop 1,
                     requests := s.requests ++ [requestTo s.uploader.host path body] } ∧
        (nextReply s).read s.platform = .ok result) := by
  refine .bind (.of_ok rfl ?_)
  rw [checkAddress_append _ _ service]
  cases addressable s.uploader.host with
  | false => exact .bind (.of_error rfl (.inl ⟨rfl, rfl, rfl⟩))
  | true =>
    rw [if_pos rfl]
    refine .bind (.of_ok (EStateM.run_pure _ _) (.look ?_))
    refine .bind (.of_ok (EStateM.run_set _ _) ?_)
    rw [show s.replies.head?.getD (.unreachable "offline") = nextReply s from rfl]
    cases read : (nextReply s).read s.platform with
    | error f => exact .of_error rfl (.inr ⟨rfl, rfl⟩)
    | ok result => exact .of_ok rfl ⟨rfl, rfl, rfl⟩

end Upload

/-- The run `s` has come to `u`, but no test was carried out and no prices were sent. -/
structure Talks (s u : Run) : Prop where
  reports : u.reports = s.reports
  prices : u.uploader.prices = s.uploader.prices
  host : u.uploader.host = s.uploader.host
  uploads : u.uploads = s.uploads

/-- Neither did the server change its mind. -/
structure Aside (s u : Run) : Prop extends Talks s u where
  connected : u.uploader.connected = s.uploader.connected

variable {α β : Type} {s t u : Run}

theorem Talks.trans (first : Talks s t) (second : Talks t u) : Talks s u where
  reports := second.reports.trans first.reports
  prices := second.prices.trans first.prices
  host := second.host.trans first.host
  uploads := second.uploads.trans first.uploads

theorem Aside.refl (s : Run) : Aside s s := ⟨⟨rfl, rfl, rfl, rfl⟩, rfl⟩

theorem Aside.trans (first : Aside s t) (second : Aside t u) : Aside s u :=
  ⟨first.toTalks.trans second.toTalks, second.connected.trans first.connected⟩

/-- Whichever way the computation ends, it has sent no prices. -/
def Discreet (x : Work α) : Prop := ∀ s, Leads x s (fun _ u => Aside s u) (fun _ u => Aside s u)

namespace Discreet

theorem value (a : α) : Discreet (pure a : Work α) := fun s => .of_ok rfl (Aside.refl s)

theorem fault (f : Fault) : Discreet (throw f : Work α) := fun s => .of_error rfl (Aside.refl s)

theorem bind {x : Work α} {f : α → Work β} (first : Discreet x) (rest : ∀ a, Discreet (f a)) :
    Discreet (x >>= f) := fun s =>
  .bind ((first s).imp (fun _ _ aside => aside) fun a u aside =>
    (rest a u).imp (fun _ _ aside' => aside.trans aside') fun _ _ aside' => aside.trans aside')

theorem look {f : Run → Work α} (rest : ∀ s, Discreet (f s)) : Discreet (get >>= f) := fun s =>
  .look (rest s s)

theorem change {g : Run → Run} (aside : ∀ s, Aside s (g s)) :
    Discreet (modify g : Work Unit) := fun s =>
  .of_ok rfl (aside s)

theorem logging (g : Log → Log) : Discreet (logging g) :=
  change fun _ => ⟨⟨rfl, rfl, rfl, rfl⟩, rfl⟩

theorem uploaderNow : Discreet uploaderNow := look fun _ => value _

theorem entry (reply : Json) (key : Text) : Discreet (Upload.entry reply key) := by
  cases reply with
  | dict => exact value _
  | _ => exact fault _

theorem ofFile (e : Except Files.Fault α) : Discreet (ofFile e) := by
  cases e with
  | ok => exact value _
  | error => exact fault _

end Discreet

namespace Upload

theorem servicePath_online : ServicePath "/api/v1/service-online".toList :=
  ⟨⟨_, rfl⟩, by decide, ⟨"/api/v1/service-onlin".toList, 'e', rfl, by decide, by decide⟩⟩

theorem servicePath_token : ServicePath "/api/v1/generate-author-token".toList :=
  ⟨⟨_, rfl⟩, by decide, ⟨"/api/v1/generate-author-toke".toList, 'n', rfl, by decide, by decide⟩⟩

theorem servicePath_prices : ServicePath "/api/v1/benchmark-result".toList :=
  ⟨⟨_, rfl⟩, by decide, ⟨"/api/v1/benchmark-resul".toList, 't', rfl, by decide, by decide⟩⟩

theorem carriesPrices_requestTo (host : String) (body : Json) :
    (requestTo host "/api/v1/benchmark-result" body).carriesPrices = true := by
  rw [Request.carriesPrices, requestTo, String.toList_append, List.isSuffixOf_iff_suffix]
  exact List.suffix_append _ _

/-- A path is told apart from the one for prices by its last character. -/
theorem not_carriesPrices_requestTo {path : String} (other : path.toList.getLast? ≠ some 't')
    (some : path.toList ≠ []) (host : String) (body : Json) :
    (requestTo host path body).carriesPrices = false := by
  rw [Request.carriesPrices, requestTo, String.toList_append, Bool.eq_false_iff, Ne,
    List.isSuffixOf_iff_suffix]
  rintro ⟨start, same⟩
  have last := congrArg List.getLast? same
  rw [List.getLast?_append_of_ne_nil _ (by decide), List.getLast?_append_of_ne_nil _ some] at last
  exact other last.symm

theorem uploads_send {path : String} (other : path.toList.getLast? ≠ some 't')
    (some : path.toList ≠ []) (s : Run) (replies : List Reply) (body : Json) :
    Aside s { s with replies, requests := s.requests ++
        [requestTo s.uploader.host path body] } := by
  refine ⟨⟨rfl, rfl, rfl, ?_⟩, rfl⟩
  simp [Run.uploads, List.filter_append, not_carriesPrices_requestTo other some]

theorem discreet_request_token (body : Json) (forced : Bool) :
    Discreet (request "/api/v1/generate-author-token" body forced) := by
  refine .bind .uploaderNow fun uploader => ?_
  split
  · refine .bind (fun s => (send_leads _ servicePath_token body s).imp ?_ ?_) fun _ => .value _
    · rintro f u (⟨-, rfl, -⟩ | ⟨rfl, -⟩)
      · exact Aside.refl _
      · exact uploads_send (by decide) (by decide) s _ body
    · rintro _ u ⟨-, rfl, -⟩
      exact uploads_send (by decide) (by decide) s _ body
  · exact .value _

theorem discreet_askLine (prompt : String) : Discreet (askLine prompt) := by
  intro s
  unfold askLine
  refine .look ?_
  have aside (prompts typed : List String) : Aside s { s with prompts, typed } :=
    ⟨⟨rfl, rfl, rfl, rfl⟩, rfl⟩
  cases lines : s.typed with
  | nil => exact .bind (.of_ok (EStateM.run_set _ _) (.of_error rfl (aside _ _)))
  | cons => exact .bind (.of_ok (EStateM.run_set _ _) (.of_ok rfl (aside _ _)))

theorem discreet_askToken : Discreet askToken :=
  .bind (discreet_askLine _) fun _ => .bind (discreet_askLine _) fun _ => discreet_request_token _ _

theorem discreet_askUntilKnown (n : Nat) : Discreet (askUntilKnown n) := by
  induction n with
  | zero => exact .fault _
  | succ n ih =>
    refine .bind discreet_askToken fun reply => .bind (.entry _ _) fun success => ?_
    dsimp only
    split
    · exact .value _
    · exact .bind (.entry _ _) fun _ => .bind (.logging _) fun _ => ih

theorem discreet_saveToken (token : Json) : Discreet (saveToken token) := by
  have write (path : String) (bytes : List UInt8) : Discreet (do
      let files ← ofFile ((← get).files.write path bytes)
      modify fun r => { r with files }) :=
    .look fun _ => .bind (.ofFile _) fun _ => .change fun _ => ⟨⟨rfl, rfl, rfl, rfl⟩, rfl⟩
  refine .bind .uploaderNow fun uploader => ?_
  cases token with
  | str text =>
    dsimp only
    cases Utf8.encodeText text with
    | ok bytes => exact .bind (write _ _) fun _ => .value _
    | error f => exact .bind (write _ _) fun _ => .fault _
  | null | bool | int | float | list | dict => exact .bind (write _ _) fun _ => .fault _

theorem discreet_newToken : Discreet newToken :=
  .bind (.logging _) fun _ => .look fun _ => .bind (discreet_askUntilKnown _) fun _ => .entry _ _

theorem discreet_authenticate : Discreet authenticate := by
  have note (text : Text) : Discreet (setUploader fun u => { u with token := some text }) :=
    .change fun _ => ⟨⟨rfl, rfl, rfl, rfl⟩, rfl⟩
  refine .bind .uploaderNow fun uploader => ?_
  dsimp only
  split
  · exact .value _
  · refine .look fun s => ?_
    split
    · refine .bind (.value _) ?_
      rintro (_ | text)
      · exact .value _
      · exact .bind (note text) fun _ => .value _
    · refine .bind discreet_newToken fun token => ?_
      split
      · refine .bind (discreet_saveToken token) fun text => .bind (.value _) ?_
        rintro (_ | text)
        · exact .value _
        · exact .bind (note text) fun _ => .value _
      · refine .bind (.value _) ?_
        rintro (_ | text)
        · exact .value _
        · exact .bind (note text) fun _ => .value _

/-- The first reply says that the server is ready. Its status is 200, or at most 200 where nobody
checks whether a reply tells of success. -/
def Ready (s : Run) : Prop :=
  ∃ status phrase body text entries, s.replies.head? = some (.response status phrase body) ∧
    Utf8.decode body = .ok text ∧ Json.parse s.platform.nesting text.toList = .ok (.dict entries) ∧
    (Json.field entries "success").holds = true ∧ status ≤ 200 ∧
    (s.platform.checksReplies = true → status = 200)

theorem checkAddress_eq (url : String) :
    (∃ address, checkAddress url = pure address) ∨ ∃ f, checkAddress url = throw f := by
  unfold checkAddress
  dsimp only
  split
  · exact .inl ⟨_, rfl⟩
  · exact .inr ⟨_, rfl⟩

theorem passes_iff {p : Platform} {status : Int} (low : status ≤ 200) :
    p.passes status = true ↔ (p.checksReplies = true → status = 200) := by
  cases checks : p.checksReplies with
  | false => simp [Platform.passes, checks]
  | true =>
    simp only [Platform.passes, checks, Bool.not_true, Bool.false_or, Bool.and_eq_true,
      decide_eq_true_eq, forall_const]
    omega

/-- What is asked of the first reply is whether the server is ready. -/
theorem ready_iff {s : Run} : Ready s ↔ ∃ status entries,
    (nextReply s).read s.platform = .ok (status, .dict entries) ∧ accepts status = true ∧
      (Json.field entries "success").holds = true := by
  constructor
  · rintro ⟨status, phrase, body, text, entries, first, decoded, parsed, success, low, checked⟩
    have next : nextReply s = .response status phrase body := by rw [nextReply, first,
      Option.getD_some]
    exact ⟨status, entries, read_eq_ok.mpr ⟨phrase, body, text, next, (passes_iff low).mpr checked,
      decoded, parsed⟩, by simpa [accepts] using low, success⟩
  · rintro ⟨status, entries, read, accepted, success⟩
    obtain ⟨phrase, body, text, next, passes, decoded, parsed⟩ := read_eq_ok.mp read
    have low : status ≤ 200 := by simpa [accepts] using accepted
    have first : s.replies.head? = some (.response status phrase body) := by
      unfold nextReply at next
      cases first : s.replies.head? with
      | none => simp [first] at next
      | some reply =>
        rw [first, Option.getD_some] at next
        rw [next]
    exact ⟨status, phrase, body, text, entries, first, decoded, parsed, success, low,
      (passes_iff low).mp passes⟩

theorem ready_of_read {s : Run} {status : Int} {reply : Json}
    (read : (nextReply s).read s.platform = .ok (status, reply)) :
    Ready s ↔ accepts status = true ∧
      ∃ entries, reply = .dict entries ∧ (Json.field entries "success").holds = true := by
  rw [ready_iff]
  constructor
  · rintro ⟨_, entries, read', accepted, success⟩
    cases read.symm.trans read'
    exact ⟨accepted, entries, rfl, success⟩
  · rintro ⟨accepted, entries, rfl, success⟩
    exact ⟨status, entries, read, accepted, success⟩

theorem not_ready_of_fault {s : Run} {f : Fault}
    (failed : (nextReply s).read s.platform = .error f) : ¬ Ready s := by
  rw [ready_iff]
  rintro ⟨status, entries, read, -⟩
  cases failed.symm.trans read

/-- What is logged does not matter here. -/
theorem logged_leads {g : Log → Log} {f : Unit → Work α} {failed : Fault → Run → Prop}
    {done : α → Run → Prop} (next : ∀ log, Leads (f ()) { s with log } failed done) :
    Leads (logging g >>= f) s failed done :=
  logging_leads (next _)

/-- What else the first reply says is noted. -/
theorem discreet_notes (reply : Json) : Discreet (do
    let note ← entry reply "msg"
    if note.holds then logging (·.warn note.text)
    let version ← entry reply "version"
    setUploader fun u => { u with version }) := by
  have noted (version : Json) : Discreet (setUploader fun u => { u with version }) :=
    .change fun _ => ⟨⟨rfl, rfl, rfl, rfl⟩, rfl⟩
  refine .bind (.entry _ _) fun note => ?_
  dsimp only
  split
  · exact .bind (.logging _) fun _ => .bind (.entry _ _) noted
  · exact .bind (.entry _ _) noted

/-- Whether there is a connection is remembered before the rest of the first reply is noted. -/
theorem remember_leads {s u : Run} (talks : Talks s u) (connected reply : Json) :
    Leads (do
        setUploader fun u => { u with connected }
        let note ← entry reply "msg"
        if note.holds then logging (·.warn note.text)
        let version ← entry reply "version"
        setUploader fun u => { u with version }) u
      (fun _ v => Talks s v) (fun _ v => Talks s v ∧ v.uploader.connected = connected) := by
  have remembered : Talks s { u with uploader := { u.uploader with connected } } :=
    ⟨talks.reports, talks.prices, talks.host, talks.uploads⟩
  refine .bind (.of_ok rfl ((discreet_notes reply _).imp ?_ ?_))
  · intro _ v aside
    exact remembered.trans aside.toTalks
  · intro _ v aside
    exact ⟨remembered.trans aside.toTalks, aside.connected⟩

theorem checkConnection_leads (s : Run) (fresh : s.uploader.connected.holds = false) :
    Leads checkConnection s (fun _ u => Talks s u)
      (fun _ u => Talks s u ∧ (u.uploader.connected.holds = true ↔ Ready s) ∧
        (Ready s → addressable s.uploader.host = true)) := by
  refine .bind (.of_ok rfl ?_)
  dsimp only
  rcases checkAddress_eq s.uploader.host with ⟨address, good⟩ | ⟨f, bad⟩
  · rw [good]
    have sent := send_leads "/api/v1/service-online" servicePath_online (.dict []) s
    refine .bind (.of_ok rfl (.bind (.tryCatch (.bind (sent.imp ?_ ?_)))))
    · intro f u failed
      have aside : Aside s u := by
        rcases failed with ⟨-, rfl, -⟩ | ⟨rfl, -⟩
        · exact Aside.refl _
        · exact uploads_send (by decide) (by decide) s _ _
      cases broken : isBroken f with
      | false =>
        rw [if_pos (by rfl)]
        exact .bind (.of_error rfl aside.toTalks)
      | true =>
        have unready : ¬ Ready s := by
          rcases failed with ⟨-, -, unbroken⟩ | ⟨-, failed⟩
          · cases broken.symm.trans unbroken
          · exact not_ready_of_fault failed
        have away : u.uploader.connected.holds = false := aside.connected ▸ fresh
        rw [if_neg (by decide)]
        refine logged_leads fun log =>
          .of_ok rfl (.of_ok rfl ⟨?_, ?_, fun ready => absurd ready unready⟩)
        · exact ⟨aside.reports, aside.prices, aside.host, aside.uploads⟩
        · simp [away, unready]
    · rintro ⟨status, reply⟩ u ⟨addressed, asked, read⟩
      have talks : Talks s u := by
        subst asked
        exact (uploads_send (by decide) (by decide) s _ _).toTalks
      refine .of_ok rfl ?_
      dsimp only
      split
      · rename_i accepted
        cases reply with
        | dict entries =>
          have ready : Ready s ↔ (Json.field entries "success").holds = true := by
            simp [ready_of_read read, accepted]
          refine .bind (.of_ok rfl ((remember_leads talks _ _).imp (fun _ _ talks => talks) ?_))
          rintro _ v ⟨talks, connected⟩
          refine ⟨talks, ?_, fun _ => addressed⟩
          rw [connected, ready]
        | _ => exact .bind (.of_error rfl talks)
      · rename_i refused
        have unready : ¬ Ready s := fun ready => refused ((ready_of_read read).mp ready).1
        refine .bind (.of_ok rfl ((remember_leads talks _ _).imp (fun _ _ talks => talks) ?_))
        rintro _ v ⟨talks, connected⟩
        refine ⟨talks, ?_, fun _ => addressed⟩
        simp [connected, Json.holds, unready]
  · rw [bad]
    exact .bind (.of_error rfl (Aside.refl s).toTalks)

/-- What was collected is sent in one request, if there is any. -/
structure Sent (s u : Run) : Prop where
  reports : u.reports = s.reports
  nothing : s.uploader.prices = [] → u.uploads = s.uploads
  once : s.uploader.prices ≠ [] → ∃ url token, u.uploads = s.uploads ++
    [⟨url, some (.dict [("token", token), ("reports", .list (s.uploader.prices.map priceJson))])⟩]

theorem Sent.aside (sent : Sent s t) (aside : Aside t u) : Sent s u where
  reports := aside.reports.trans sent.reports
  nothing none := aside.uploads.trans (sent.nothing none)
  once some := aside.uploads ▸ sent.once some

theorem sendPrices_leads (s : Run) (connected : s.uploader.connected.holds = true)
    (addressed : addressable s.uploader.host = true) :
    Leads sendPrices s (fun _ u => Sent s u) (fun _ u => Sent s u) := by
  refine .bind (.of_ok rfl ?_)
  dsimp only
  cases collected : s.uploader.prices with
  | nil => exact .of_ok rfl ⟨rfl, fun _ => rfl, fun some => absurd collected some⟩
  | cons price prices =>
    have sent {v : Run} {replies : List Reply} {token : Json} (asked : v = { s with
        replies, requests := s.requests ++ [requestTo s.uploader.host "/api/v1/benchmark-result"
          (.dict [("token", token), ("reports", .list ((price :: prices).map priceJson))])] }) :
          Sent s v := by
      subst asked
      refine ⟨rfl, fun none => absurd (collected.symm.trans none) nofun, fun _ =>
        ⟨String.ofList (base s.uploader.host.toList) ++ "/api/v1/benchmark-result", token, ?_⟩⟩
      simp only [Run.uploads, List.filter_append, List.filter_singleton,
        carriesPrices_requestTo, collected]
      rfl
    rw [if_neg (by simp)]
    refine .bind (.of_ok rfl ?_)
    rw [connected, Bool.true_or, if_pos rfl]
    refine .bind ((send_leads _ servicePath_prices _ s).imp ?_ ?_)
    · rintro _ v (⟨unaddressed, -⟩ | ⟨asked, -⟩)
      · cases addressed.symm.trans unaddressed
      · exact sent asked
    · rintro _ v ⟨-, asked, -⟩
      exact .of_ok rfl (sent asked)

end Upload

/-! The tests of a run. -/

variable {r : Runner} {fuel : Nat}

/-- The run `s` has come to `u` by tests that were carried out: each has its report, and prices were
collected. -/
structure Carried (r : Runner) (fuel : Nat) (s u : Run) (new : List Report) : Prop where
  reports : u.reports = s.reports ++ new
  uploader : u.uploader =
    { s.uploader with prices := s.uploader.prices ++ new.filterMap Report.price? }
  requests : u.requests = s.requests
  courses : ∀ report ∈ new, ∃ p l h, Course r fuel report.test p l h report

theorem Carried.none (s : Run) : Carried r fuel s s [] := by
  constructor <;> simp

theorem Carried.trans {a b : List Report} (first : Carried r fuel s t a)
    (second : Carried r fuel t u b) :
    Carried r fuel s u (a ++ b) where
  reports := by rw [second.reports, first.reports, List.append_assoc]
  uploader := by rw [second.uploader, first.uploader, List.filterMap_append, List.append_assoc]
  requests := second.requests.trans first.requests
  courses report member :=
    (List.mem_append.mp member).elim (first.courses report) (second.courses report)

theorem Judged.carried {c : Case} {report : Report} {p : Programs} {l h : Log}
    (judged : Judged s u h report) (course : Course r fuel c p l h report) :
    Carried r fuel s u [report] where
  reports := judged.reports
  uploader := by
    rw [judged.uploader]
    cases price : report.price? <;> simp [price]
  requests := judged.requests
  courses := by
    intro report' member
    cases List.mem_singleton.mp member
    exact ⟨p, l, h, course.tells.1 ▸ course⟩

theorem runCases_leads (sectionName : String) (cases : List Case) (s : Run) :
    Leads (cases.forM (r.runCase fuel sectionName)) s (fun _ u => u.requests = s.requests)
      (fun _ u => ∃ new, Carried r fuel s u new ∧ new.map (·.test) = cases) := by
  have each (c : Case) (_ : c ∈ cases) (before : List Case) (t : Run)
      (carried : ∃ new, Carried r fuel s t new ∧ new.map (·.test) = before) :
      Leads (r.runCase fuel sectionName c) t (fun _ u => u.requests = s.requests)
        (fun _ u => ∃ new, Carried r fuel s u new ∧ new.map (·.test) = before ++ [c]) := by
    obtain ⟨new, carried, rfl⟩ := carried
    refine (runCase_concludes r fuel sectionName c t).imp ?_ ?_
    · intro _ u hindered
      exact hindered.requests.trans carried.requests
    · rintro _ u ⟨_, h, report, -, course, judged⟩
      refine ⟨new ++ [report], carried.trans (judged.carried course), ?_⟩
      rw [List.map_append, List.map_singleton, course.tells.1]
  exact Leads.forM each [] ⟨[], Carried.none s, rfl⟩

/-- Loading ends as it does on the files, and only the log is changed by it. -/
theorem loading_outcome {l : Files.Tree → Loading α} (s : Run) :
    Leads (loading l) s
      (fun _ u => (∃ f ws, (l s.files).run [] = .error f ws) ∧ ∃ log, u = { s with log })
      (fun a u => (∃ ws, (l s.files).run [] = .ok a ws) ∧ ∃ log, u = { s with log }) := by
  have warned (ws : List Warning) : Leads (ws.forM fun w => logging (·.warn w.message)) s
    (fun _ _ => False)
      (fun _ u => ∃ log, u = { s with log }) := by
    refine Leads.forM (I := fun _ u => ∃ log, u = { s with log }) ?_ [] ⟨s.log, rfl⟩
    rintro w - before _ ⟨log, rfl⟩
    exact .of_ok rfl ⟨_, rfl⟩
  unfold loading
  refine .look ?_
  cases ran : (l s.files).run [] with
  | ok a ws =>
    refine .bind ((warned ws.reverse).imp (fun _ _ => False.elim) fun _ u logged => ?_)
    exact .of_ok rfl ⟨⟨ws, rfl⟩, logged⟩
  | error f ws =>
    refine .bind ((warned ws.reverse).imp (fun _ _ => False.elim) fun _ u logged => ?_)
    exact .of_error rfl ⟨⟨f, ws, rfl⟩, logged⟩

theorem loading_leads {l : Files.Tree → Loading α} (s : Run) :
    Leads (loading l) s (fun _ u => ∃ log, u = { s with log })
      (fun a u => (∃ ws, (l s.files).run [] = .ok a ws) ∧ ∃ log, u = { s with log }) :=
  (loading_outcome s).imp (fun _ _ failed => failed.2) fun _ _ loaded => loaded

/-- The run `s` goes through these sections to `u`; each of them is loaded when its turn comes,
after the directory for its logs was made, and its tests follow those of the sections before it. -/
inductive Runner.Loads (r : Runner) (fuel : Nat) (s : Run) :
    List String → List Case → Run → Prop where
  | none : r.Loads fuel s [] [] s
  | next {dirs : List String} {cases group : List Case} {t u : Run} {dir : String}
      {files : Files.Tree} {ws : List Warning} (before : r.Loads fuel s dirs cases t)
      (made : t.files.makeDirectory (Files.join r.logDirectory (Files.baseName dir)) = .ok files)
      (loaded : (r.suite.load files dir).run [] = .ok group ws)
      (ran : (r.runSection fuel dir).run t = .ok () u) :
      r.Loads fuel s (dirs ++ [dir]) (cases ++ group) u

theorem Carried.of_log_files (log : Log)
    (files : Files.Tree) : Carried r fuel s { s with log, files } [] := by
  constructor <;> simp

theorem runSection_leads (dir : String) (s : Run) :
    Leads (r.runSection fuel dir) s (fun _ u => u.requests = s.requests)
      (fun _ u => ∃ new files ws, Carried r fuel s u new ∧
        s.files.makeDirectory (Files.join r.logDirectory (Files.baseName dir)) = .ok files ∧
        (r.suite.load files dir).run [] = .ok (new.map (·.test)) ws) := by
  refine Upload.logged_leads fun log => .look ?_
  refine ofFile_leads (fun _ _ => rfl) fun files made => .change ?_
  refine .bind ((loading_leads _).imp ?_ ?_)
  · rintro _ _ ⟨log, rfl⟩
    rfl
  · rintro cases _ ⟨⟨ws, loaded⟩, log, rfl⟩
    refine (runCases_leads (Files.baseName dir) cases _).imp (fun _ _ same => same) ?_
    rintro _ u ⟨new, carried, rfl⟩
    exact ⟨new, files, ws, (Carried.of_log_files log files).trans carried, made, loaded⟩

theorem runSections_leads (s : Run) :
    Leads (r.runSections fuel) s (fun _ u => u.requests = s.requests)
      (fun _ u => ∃ new dirs, r.suite.sections s.files = .ok dirs ∧
        r.Loads fuel s dirs (new.map (·.test)) u ∧ Carried r fuel s u new) := by
  refine .look (ofFile_leads (fun _ _ => rfl) fun dirs found => ?_)
  have each (dir : String) (_ : dir ∈ dirs) (before : List String) (t : Run)
      (carried : ∃ new, Carried r fuel s t new ∧ r.Loads fuel s before (new.map (·.test)) t) :
      Leads (r.runSection fuel dir) t (fun _ u => u.requests = s.requests)
        (fun _ u => ∃ new, Carried r fuel s u new ∧
          r.Loads fuel s (before ++ [dir]) (new.map (·.test)) u) := by
    obtain ⟨new, carried, loads⟩ := carried
    refine (runSection_leads dir t).kept.imp (fun _ _ same => same.2.trans carried.requests) ?_
    rintro _ u ⟨ran, more, files, ws, carried', made, loaded⟩
    refine ⟨new ++ more, carried.trans carried', ?_⟩
    rw [List.map_append]
    exact loads.next made loaded ran
  refine (Leads.forM each [] ⟨[], Carried.none s, .none⟩).imp (fun _ _ same => same) ?_
  rintro _ u ⟨new, carried, loads⟩
  exact ⟨new, dirs, found, loads, carried⟩

theorem summarize_leads (s : Run) :
    Leads Runner.summarize s (fun _ u => u = s) (fun _ u => ∃ log, u = { s with log }) := by
  unfold Runner.summarize
  refine .look ?_
  cases s.log.results? (s.reports.map (·.success)) with
  | none => exact .of_error rfl rfl
  | some result => exact .bind (.of_ok (EStateM.run_set _ _) (.of_ok rfl ⟨result.2, rfl⟩))

/-- Whatever goes wrong with the upload is only warned about. -/
theorem upload_leads (s : Run) (connected : s.uploader.connected.holds = true)
    (addressed : Upload.addressable s.uploader.host = true) :
    Leads Runner.upload s (fun _ _ => False) (fun _ u => Upload.Sent s u) := by
  have warned {m : Text} {t : Run} (sent : Upload.Sent s t) :
      Leads (logging (·.warn m)) t (fun _ _ => False) (fun _ u => Upload.Sent s u) :=
    .of_ok rfl (sent.aside ⟨⟨rfl, rfl, rfl, rfl⟩, rfl⟩)
  have answered (reply : Json) : Discreet (do
      if !(← Upload.entry reply "success").holds then
        let m := (← Upload.entry reply "message").text
        logging (·.warn ("Server fail with saving result (" ++ m ++ "), terminating..."))) := by
    refine .bind (.entry _ _) fun success => ?_
    split
    · exact .bind (.entry _ _) fun _ => .logging _
    · exact .value _
  refine .tryCatch (.bind ((Upload.sendPrices_leads s connected addressed).imp ?_ ?_))
  · intro f t sent
    exact warned sent
  · intro reply t sent
    refine (answered reply t).imp ?_ ?_
    · intro f u aside
      exact warned (sent.aside aside)
    · intro _ u aside
      exact sent.aside aside

theorem welcome_leads (s : Run) :
    Leads r.welcome s (fun _ _ => False) (fun _ u => ∃ log, u = { s with log }) := by
  refine Upload.logged_leads fun log => ?_
  dsimp only
  split
  · refine Upload.logged_leads fun log => ?_
    split
    · exact .of_ok rfl ⟨_, rfl⟩
    · exact .of_ok rfl ⟨log, rfl⟩
  · split
    · exact .of_ok rfl ⟨_, rfl⟩
    · exact .of_ok rfl ⟨log, rfl⟩

/-- The tests were carried out, and their prices were sent if the server was ready. -/
structure Uploaded (r : Runner) (fuel : Nat) (ready : Prop) (s u : Run) (new : List Report) :
    Prop where
  reports : u.reports = s.reports ++ new
  courses : ∀ report ∈ new, ∃ p l h, Course r fuel report.test p l h report
  unready : ¬ ready → u.uploads = s.uploads
  nothing : new.filterMap Report.price? = [] → u.uploads = s.uploads
  once : ready → new.filterMap Report.price? ≠ [] → ∃ url token, u.uploads = s.uploads ++
    [⟨url, some (.dict [("token", token),
      ("reports", .list ((new.filterMap Report.price?).map Upload.priceJson))])⟩]

theorem Uploaded.logged {ready : Prop} {new : List Report}
    (uploaded : Uploaded r fuel ready s u new) (log : Log) :
    Uploaded r fuel ready s { u with log } new :=
  { uploaded with }

theorem Uploaded.of_talks {ready ready' : Prop} {new : List Report}
    (uploaded : Uploaded r fuel ready t u new) (talks : Talks s t) (same : ready ↔ ready') :
    Uploaded r fuel ready' s u new where
  reports := talks.reports ▸ uploaded.reports
  courses := uploaded.courses
  unready away := (uploaded.unready (mt same.mp away)).trans talks.uploads
  nothing none := (uploaded.nothing none).trans talks.uploads
  once ready some := talks.uploads ▸ uploaded.once (same.mpr ready) some

/-- These are the tests of all sections of the suite, as a run finds them from `s` on. -/
def Runner.Finds (r : Runner) (fuel : Nat) (s : Run) (cases : List Case) : Prop :=
  ∃ dirs last, r.suite.sections s.files = .ok dirs ∧ r.Loads fuel s dirs cases last

/-- A remark in the log before a result changes nothing else. -/
theorem remark_leads (p : Prop) [Decidable p] (g : Log → Log) (a : α) (s : Run) :
    Leads (if p then (do logging g; pure a) else pure a) s (fun _ _ => False)
      (fun _ u => ∃ log, u = { s with log }) := by
  split
  · exact Upload.logged_leads fun log => .of_ok rfl ⟨log, rfl⟩
  · exact .of_ok rfl ⟨s.log, rfl⟩

theorem carryOut_leads (s : Run) (none : s.uploader.prices = [])
    (addressed : s.uploader.connected.holds = true → Upload.addressable s.uploader.host = true) :
    Leads (r.carryOut fuel) s (fun _ u => u.uploads = s.uploads)
      (fun _ u => ∃ new, Uploaded r fuel (s.uploader.connected.holds = true) s u new ∧
        r.Finds fuel s (new.map (·.test))) := by
  have same {u : Run} (requests : u.requests = s.requests) : u.uploads = s.uploads :=
    congrArg (List.filter Request.carriesPrices) requests
  refine .bind ((runSections_leads s).imp (fun _ _ => same) ?_)
  rintro _ t ⟨new, dirs, found, loads, carried⟩
  have finds : r.Finds fuel s (new.map (·.test)) := ⟨dirs, t, found, loads⟩
  have connected : t.uploader.connected = s.uploader.connected := by rw [carried.uploader]
  have host : t.uploader.host = s.uploader.host := by rw [carried.uploader]
  have prices : t.uploader.prices = new.filterMap Report.price? := by
    rw [carried.uploader, none, List.nil_append]
  refine .bind ((summarize_leads t).imp ?_ ?_)
  · rintro _ _ rfl
    exact same carried.requests
  rintro v _ ⟨log, rfl⟩
  refine .bind (.of_ok rfl ?_)
  dsimp only
  split
  · rename_i ready
    have ready' : s.uploader.connected.holds = true := connected ▸ ready
    refine .bind ((upload_leads { t with log } ready (host ▸ addressed ready')).imp
      (fun _ _ => False.elim) ?_)
    intro _ u sent
    have uploaded : Uploaded r fuel (s.uploader.connected.holds = true) s u new := by
      refine ⟨sent.reports.trans carried.reports, carried.courses, fun away =>
        absurd ready' away, ?_, ?_⟩
      · intro none
        exact (sent.nothing (prices.trans none)).trans (same carried.requests)
      · intro _ some
        obtain ⟨url, token, once⟩ := sent.once (prices ▸ some)
        have before : Run.uploads { t with log } = s.uploads := same carried.requests
        exact ⟨url, token, by rw [once, before, prices]⟩
    refine (remark_leads _ _ _ u).imp (fun _ _ => False.elim) ?_
    rintro _ _ ⟨log, rfl⟩
    exact ⟨new, uploaded.logged log, finds⟩
  · rename_i away
    refine Upload.logged_leads fun log => (remark_leads _ _ _ _).imp (fun _ _ => False.elim) ?_
    rintro _ _ ⟨log, rfl⟩
    have kept := same carried.requests
    exact ⟨new, ⟨carried.reports, carried.courses, fun _ => kept, fun _ => kept,
      fun ready => absurd (connected ▸ ready) away⟩, finds⟩

/-- The user is found out, or needs not be, without a fault; the run has then come to `t`. -/
def Runner.Authenticates (r : Runner) (s t : Run) : Prop :=
  ∃ known, (do r.welcome; Upload.checkConnection; Upload.authenticate : Work Bool).run
    s = .ok known t

theorem run_leads (r : Runner) (fuel : Nat) (s : Run) (none : s.uploader.prices = [])
    (fresh : s.uploader.connected.holds = false) :
    Leads (r.run fuel) s (fun _ u => u.uploads = s.uploads)
      (fun _ u => (∃ t new, r.Authenticates s t ∧ Uploaded r fuel (Upload.Ready s) s u new ∧
          r.Finds fuel t (new.map (·.test))) ∨
        (∀ t, ¬ r.Authenticates s t) ∧ u.reports = s.reports ∧ u.uploads = s.uploads) := by
  unfold Runner.run
  refine .bind ((welcome_leads s).kept.imp (fun _ _ never => never.2.elim) ?_)
  rintro _ _ ⟨welcomed, log, rfl⟩
  refine .bind ((Upload.checkConnection_leads { s with log } fresh).kept.imp ?_ ?_)
  · rintro _ u ⟨-, talks⟩
    exact talks.uploads
  rintro _ t ⟨checked, talks, connected, addressed⟩
  -- so far the run has done what comes first in `Authenticates`
  have started : (do r.welcome; Upload.checkConnection; Upload.authenticate : Work Bool).run s =
      Upload.authenticate.run t := by
    rw [EStateM.run_bind, welcomed]
    dsimp only
    rw [EStateM.run_bind, checked]
  refine .bind (.tryCatch (.bind (.bind ((Upload.discreet_authenticate t).kept.imp ?_ ?_))))
  · rintro f u ⟨failed, aside⟩
    have unknown (v : Run) : ¬ r.Authenticates s v := by
      rintro ⟨known, ran⟩
      rw [started, failed] at ran
      cases ran
    refine .of_ok rfl (Upload.logged_leads fun log => .of_ok rfl (.inr ⟨unknown, ?_, ?_⟩))
    · exact aside.reports.trans talks.reports
    · exact aside.uploads.trans talks.uploads
  · rintro known u ⟨ran, aside⟩
    have talks' : Talks { s with log } u := talks.trans aside.toTalks
    have ready : u.uploader.connected.holds = true ↔ Upload.Ready s := by
      rw [aside.connected]
      exact connected
    have prices : u.uploader.prices = [] := talks'.prices.trans none
    have host : u.uploader.host = s.uploader.host := talks'.host
    refine .of_ok rfl (.of_ok rfl ?_)
    refine (carryOut_leads u prices fun holds => host ▸ addressed (ready.mp holds)).imp ?_ ?_
    · intro _ v kept
      exact kept.trans talks'.uploads
    · rintro _ v ⟨new, uploaded, finds⟩
      have same : Talks s u := ⟨talks'.reports, talks'.prices, talks'.host, talks'.uploads⟩
      exact .inl ⟨u, new, ⟨known, started.trans ran⟩, uploaded.of_talks same ready, finds⟩

/-! Which tests have a price. -/

/-- A run that ends stays the same with more fuel. -/
theorem run_of_le {p : Program} {m last : Machine} {o : Machine.Outcome} {n k : Nat}
    (ran : Machine.run p n m = (o, last)) (ended : o ≠ .outOfFuel) (le : n ≤ k) :
    Machine.run p k m = (o, last) := by
  induction n generalizing m k with
  | zero =>
    cases ran
    exact absurd rfl ended
  | succ n ih =>
    obtain ⟨k, rfl⟩ : ∃ k', k = k' + 1 := ⟨k - 1, by omega⟩
    rw [Machine.run] at ran ⊢
    cases stepped : Machine.step p m with
    | next m' =>
      rw [stepped] at ran
      exact ih ran (by omega)
    | _ =>
      rw [stepped] at ran
      exact ran

/-- The own interpreter runs the program to its end, on this machine. -/
def Computes (program : Text) (stdin : Json) (m : Machine) : Prop :=
  ∃ input p n, stdin = .str input ∧ Program.load program.shown = .ok p ∧
    Machine.run p n (p.start input.shown none) = (.finished, m)

/-- The fuel is enough for the own interpreter to end. -/
def Suffices (fuel : Nat) (program : Text) (stdin : Json) : Prop :=
  ∀ input p, stdin = .str input → Program.load program.shown = .ok p →
    (Machine.run p fuel (p.start input.shown none)).1 ≠ .outOfFuel

theorem priceOf_eq_ok {program : Text} {stdin : Json} (enough : Suffices fuel program stdin)
    (m : Machine) :
    priceOf fuel program stdin = .ok m ↔ Computes program stdin m := by
  constructor
  · intro computed
    unfold priceOf at computed
    split at computed
    · rename_i input
      split at computed
      · cases computed
      · rename_i p loaded
        have ended := enough input p rfl loaded
        split at computed
        · cases computed
        · rename_i o m' unfailed ran
          cases computed
          rw [ran] at ended
          cases o with
          | finished => exact ⟨input, p, fuel, rfl, loaded, ran⟩
          | failed f => exact absurd rfl (unfailed f)
          | outOfFuel => exact absurd rfl ended
    · cases computed
  · rintro ⟨input, p, n, rfl, loaded, ran⟩
    have ended := enough input p rfl loaded
    have same : Machine.run p fuel (p.start input.shown none) = (.finished, m) := by
      rcases Nat.le_total n fuel with le | le
      · exact run_of_le ran nofun le
      · exact (run_of_le rfl ended le).symm.trans ran
    simp [priceOf, loaded, same]

theorem Course.machine_iff {c : Case} {p : Programs} {l h : Log} {report : Report}
    (course : Course r fuel c p l h report)
    (enough : ∀ program, report.compilerStdout = some program → Suffices fuel program c.stdin)
    (m : Machine) :
    report.machine = some m ↔ report.success = some true ∧ report.interpreterExit = some 0 ∧
      ∃ program, report.compilerStdout = some program ∧ Computes program c.stdin m := by
  cases course with
  | skipped => simp
  | unfinished => simp
  | otherExit => simp [Report.compiled]
  | stopped => simp [Report.compiled]
  | interpreted compiled rest =>
    cases rest with
    | unfinished => simp [Report.compiled]
    | otherExit => simp [Report.interpreted, Report.compiled]
    | stopped _ _ nonzero => simp [Report.interpreted, Report.compiled, nonzero]
    | otherOutput => simp [Report.interpreted, Report.compiled]
    | unpriced _ _ _ refused =>
      have priced := priceOf_eq_ok (enough _ rfl) m
      rw [refused] at priced
      simp [Report.interpreted, Report.compiled, ← priced]
    | priced _ _ _ computed =>
      have priced := priceOf_eq_ok (enough _ rfl) m
      rw [computed] at priced
      simp [Report.interpreted, Report.compiled, ← priced]

theorem changing_leads (g : Files.Tree → Except Files.Fault Files.Tree) (s : Run) :
    Leads (changing g) s (fun _ u => u = s) (fun _ u => ∃ files, g s.files = .ok files ∧
      u = { s with files }) :=
  .look (ofFile_leads (fun _ _ => rfl) fun files done => .of_ok rfl ⟨files, done, rfl⟩)

/-- Clearing a directory changes nothing but files. -/
theorem clearLogs_leads (dir token : String) (s : Run) :
    Leads (clearLogs dir token) s (fun _ u => ∃ files, u = { s with files })
    (fun _ u => ∃ files, u = { s with files }) := by
  have changed (g : Files.Tree → Except Files.Fault Files.Tree) (u : Run)
    (same : ∃ files, u = { s with files }) :
      Leads (changing g) u (fun _ v => ∃ files, v = { s with files })
        (fun _ v => ∃ files, v = { s with files }) := by
    obtain ⟨files, rfl⟩ := same
    refine (changing_leads g _).imp ?_ ?_
    · rintro _ _ rfl
      exact ⟨files, rfl⟩
    · rintro _ _ ⟨files', -, rfl⟩
      exact ⟨files', rfl⟩
  have removed (name : String) (u : Run) (same : ∃ files, u = { s with files }) :
      Leads (removeLog dir token name) u (fun _ v => ∃ files, v = { s with files })
        (fun _ v => ∃ files, v = { s with files }) := by
    unfold removeLog
    dsimp only
    split
    · exact changed _ u same
    · exact .of_ok rfl same
  refine .look ?_
  dsimp only
  split
  · refine .bind
      ((Leads.forM (I := fun _ u => ∃ files, u = { s with files }) (fun name _ _ => removed name) []
      ⟨s.files, rfl⟩).imp (fun _ _ same => same) fun _ u same => ?_)
    exact Leads.forM (I := fun _ u => ∃ files, u = { s with files })
      (fun name _ _ => changed _) [] same
  · exact .of_ok rfl ⟨s.files, rfl⟩

theorem prepare_leads (o : Options) (s : Run) :
    Leads (Runner.prepare o) s (fun _ _ => True)
      (fun _ u => u.uploader.prices = [] ∧ u.uploader.connected.holds = false) := by
  have any {β : Type} {x : Work β} {t : Run} : Leads x t (fun _ _ => True) (fun _ _ => True) := by
    cases ran : x.run t with
    | ok => exact .of_ok ran trivial
    | error => exact .of_error ran trivial
  refine .look ?_
  dsimp only
  split
  · exact .of_error rfl trivial
  split
  · exact .of_error rfl trivial
  split
  · exact .of_error rfl trivial
  refine .bind (any.imp (fun _ _ _ => trivial) fun suite t _ => ?_)
  refine .bind (any.imp (fun _ _ _ => trivial) fun found u _ => ?_)
  refine Upload.logged_leads fun log => .look (.bind (.of_ok rfl ?_))
  split
  · refine .bind ((clearLogs_leads _ _ _).imp (fun _ _ _ => trivial) ?_)
    rintro _ _ ⟨files, rfl⟩
    exact .of_ok rfl ⟨rfl, rfl⟩
  · refine .bind ((changing_leads _ _).imp (fun _ _ _ => trivial) ?_)
    rintro _ _ ⟨files, -, rfl⟩
    exact .of_ok rfl ⟨rfl, rfl⟩

/-- Of what a run that was prepared sends, at most one request carries prices: one does if the
server was ready at first, the user was found out and some test has a price, and it carries the
prices of these tests in the order of the tests. The tests are those of all sections, as they are
found after the user was found out. A test has a price if it was passed, with the interpreter, and
the own interpreter runs its program to the end. A run that is broken off sends none. -/
theorem Runner.prices_sent_once (o : Options) (fuel : Nat) (s₀ s : Run) (r : Runner)
    (prepared : (Runner.prepare o).run s₀ = .ok r s) :
    (∀ f s', (r.run fuel).run s = .error f s' → s'.uploads = s.uploads) ∧
    ∀ ending s', (r.run fuel).run s = .ok ending s' → ∃ new, s'.reports = s.reports ++ new ∧
      (∀ t, r.Authenticates s t → r.Finds fuel t (new.map (·.test))) ∧
      (s'.uploads = s.uploads ∨ ∃ url token, s'.uploads = s.uploads ++
        [⟨url, some (.dict [("token", token),
          ("reports", .list ((new.filterMap Report.price?).map Upload.priceJson))])⟩]) ∧
      (s'.uploads ≠ s.uploads ↔
        Upload.Ready s ∧ (∃ t, r.Authenticates s t) ∧ new.filterMap Report.price? ≠ []) ∧
      ∀ report ∈ new,
        (∀ program, report.compilerStdout = some program →
          Suffices fuel program report.test.stdin) →
        ∀ m, report.machine = some m ↔ report.success = some true ∧
          report.interpreterExit = some 0 ∧
          ∃ program, report.compilerStdout = some program ∧
            Computes program report.test.stdin m := by
  obtain ⟨none, fresh⟩ := (prepare_leads o s₀).ok prepared
  have whole := run_leads r fuel s none fresh
  refine ⟨fun f s' => whole.error, fun ending s' ran => ?_⟩
  rcases whole.ok ran with ⟨t, new, known, uploaded, finds⟩ | ⟨unknown, reports, uploads⟩
  · refine ⟨new, uploaded.reports, ?_, ?_, ?_, ?_⟩
    · rintro t' ⟨_, ran⟩
      obtain ⟨_, ran'⟩ := known
      cases ran.symm.trans ran'
      exact finds
    · by_cases sent : Upload.Ready s ∧ new.filterMap Report.price? ≠ []
      · exact .inr (uploaded.once sent.1 sent.2)
      · rcases not_and_or.mp sent with unready | nothing
        · exact .inl (uploaded.unready unready)
        · exact .inl (uploaded.nothing (not_not.mp nothing))
    · constructor
      · intro sent
        exact ⟨by_contra fun unready => sent (uploaded.unready unready), ⟨t, known⟩,
          fun nothing => sent (uploaded.nothing nothing)⟩
      · rintro ⟨ready, -, some⟩
        obtain ⟨url, token, once⟩ := uploaded.once ready some
        simp [once]
    · intro report member enough
      obtain ⟨p, l, h, course⟩ := uploaded.courses report member
      exact course.machine_iff enough
  · refine ⟨[], by simp [reports], fun t known => absurd known (unknown t), .inl uploads, ?_,
      List.forall_mem_nil _⟩
    simp [uploads]

/-- Options for a suite of one test, with a token at hand. -/
def digitOptions : Options :=
  { smallRunner.options with
    timeout := .float (.finite false Binary64.scale), logDirectory := some "log",
    tokenFile := some "token", host := "http://host" }

/-- The test is met, and the server answers at first with the given status. -/
def digitSuite (status : Int) : Run :=
  { smallRun with
    files := {
      top := "/"
      nodes := [(["compiler"], .file []), (["interpreter"], .file []),
        (["token"], .file (Utf8.encode "11111111-2222-4333-8444-555555555555")),
        (["tests"], .directory), (["basic", "tests"], .directory),
        (["three.code", "basic", "tests"], .file (Utf8.encode "print 3")),
        (["three.stdout", "basic", "tests"], .file (Utf8.encode "3"))] }
    executables := ["compiler", "interpreter"]
    replies := [.response status "" (Utf8.encode "\x7b\"success\": true\x7d"),
      .response 200 "" (Utf8.encode "\x7b\"success\": true\x7d")]
    launches := [.ended (Utf8.encode digitProgram) [] 0, .ended (Utf8.encode "3") [] 0] }

/-- How many prices were collected, and how many requests carried prices before and after the
tests. -/
def digitUploads (status : Int) : Option (Nat × Nat × Nat) :=
  match (Runner.prepare digitOptions).run (digitSuite status) with
  | .error _ _ => none
  | .ok r s =>
    match (r.run 5).run s with
    | .error _ _ => none
    | .ok _ s' => some (s'.uploader.prices.length, s.uploads.length, s'.uploads.length)

theorem digitUploads_some {status : Int} {collected before after : Nat}
    (counted : digitUploads status = some (collected, before, after)) :
    ∃ r s ending s', (Runner.prepare digitOptions).run (digitSuite status) = .ok r s ∧
      (r.run 5).run s = .ok ending s' ∧ s.uploads.length = before ∧ s'.uploads.length = after := by
  unfold digitUploads at counted
  split at counted
  · cases counted
  · rename_i r s prepared
    split at counted
    · cases counted
    · rename_i ending s' ran
      cases counted
      exact ⟨r, s, ending, s', prepared, ran, rfl, rfl⟩

theorem Runner.digitSuite_sent :
    ∃ r s ending s' new url token, (Runner.prepare digitOptions).run (digitSuite 200) = .ok r s ∧
      (r.run 5).run s = .ok ending s' ∧ s'.reports = s.reports ++ new ∧
      new.filterMap Report.price? ≠ [] ∧ Upload.Ready s ∧ (∃ t, r.Authenticates s t) ∧
      s'.uploads = s.uploads ++ [⟨url, some (.dict [("token", token),
        ("reports", .list ((new.filterMap Report.price?).map Upload.priceJson))])⟩] := by
  have counted : digitUploads 200 = some (1, 0, 1) := by decide +kernel
  obtain ⟨r, s, ending, s', prepared, ran, before, after⟩ := digitUploads_some counted
  have sent : s'.uploads ≠ s.uploads := by
    intro same
    rw [same, before] at after
    cases after
  obtain ⟨-, ended⟩ := Runner.prices_sent_once digitOptions 5 (digitSuite 200) s r prepared
  obtain ⟨new, reports, -, once, iff, -⟩ := ended ending s' ran
  obtain ⟨ready, known, some⟩ := iff.mp sent
  obtain ⟨url, token, uploads⟩ := once.resolve_left sent
  exact ⟨r, s, ending, s', new, url, token, prepared, ran, reports, some, ready, known, uploads⟩

/-- After a first reply with status 201 nothing is sent, although a price was collected. -/
theorem Runner.created_reply_unready : digitUploads 201 = some (1, 0, 0) := by
  decide +kernel

end TacBench.Bench
