import OpenNode.Json

namespace OpenNode.Federation

structure ServerSharingError where
  status : Nat
  code : String
deriving DecidableEq, Repr

def ownerUnavailable : ServerSharingError := ⟨502, "server_share_owner_unavailable"⟩
def responseInvalid : ServerSharingError := ⟨502, "server_share_owner_response_invalid"⟩

def maxResponse : Nat := 256 * 1024

/-- A complete answer, with the headers `X-Fed-KeyEx` and `X-Encrypted`. -/
structure Answer where
  status : Nat
  ownerKey : Option String := none
  encrypted : Option String := none
  content : List UInt8 := []

/-- What a request to one address meets: it never completely reaches an owner, or
the exchange fails after that (with the status, when the head of an answer
came back), or it is answered. -/
inductive Reply where
  | unsent
  | broken (status : Option Nat)
  | answered (answer : Answer)

/-- Whether an owner certainly did not accept the request. -/
def Reply.unaccepted : Reply → Bool
  | .unsent => true
  | .broken status => status == some 404 || status == some 412
  | .answered answer => answer.status == 404 || answer.status == 412

def Reply.answer? : Reply → Option Answer
  | .answered answer => some answer
  | _ => none

/-- The encrypted and the key exchanging request to the old endpoint, and the one
to the versioned endpoint. -/
inductive Request where
  | sealed
  | keyExchange
  | versioned
deriving DecidableEq, Repr

structure Copy where
  request : Request
  address : String
  reply : Reply

def status (request : Request) (status : Nat) : Except ServerSharingError Bool :=
  if status = 401 then .error ⟨401, "server_share_token_invalid"⟩
  else if status = 403 then .error ⟨403, "server_share_forbidden"⟩
  else if status = 404 ∧ request ≠ .versioned then .ok false
  else if status = 412 ∧ request = .sealed then .ok true
  else if status ≥ 400 then .error ownerUnavailable
  else .ok true

/-- What an answer makes of a request: an error, nothing, or the answer itself. -/
def judge (request : Request) (answer : Answer) : Except ServerSharingError (Option Answer) :=
  if maxResponse < answer.content.length then .error responseInvalid
  else if answer.status ∈ [301, 302, 303, 307, 308] then .error responseInvalid
  else (status request answer.status).map fun accepted => if accepted then some answer else none

/-- The loop over the addresses, each with the reply that it would give. -/
def requestBytes (request : Request) : List (String × Reply) → List Copy × Except ServerSharingError (Option Answer)
  | [] => ([], .error ownerUnavailable)
  | (address, reply) :: rest =>
    match reply.answer? with
    | some answer => ([⟨request, address, reply⟩], judge request answer)
    | none => (⟨request, address, reply⟩ :: (requestBytes request rest).1, (requestBytes request rest).2)

/-- The cryptography with the session in use and the key drawn for a new one, and
the reading of a content and of a command. -/
structure Channel (S R : Type) where
  encrypt : S → List UInt8 → Option (List UInt8)
  decrypt : S → List UInt8 → Option (List UInt8)
  derive : String → Option S
  loads : List UInt8 → Option Json
  validate : Json → Option R

/-- The addresses that are found for each request, none when the owner is not found. -/
abbrev Network := Request → List (String × Reply)

def Network.send (net : Network) (request : Request) : List Copy × Except ServerSharingError (Option Answer) :=
  requestBytes request (net request)

variable {S R : Type} (channel : Channel S R) (net : Network)

/-- The value of a content; JSON's `null` is read as none. -/
def legacyJson (content : List UInt8) : Except ServerSharingError (Option Json) :=
  match channel.loads content with
  | none => .error responseInvalid
  | some .null => .ok none
  | some value => .ok (some value)

/-- The copies sent, the cached session and the outcome. -/
abbrev Sent (S A : Type) := List Copy × Option S × Except ServerSharingError A

def legacyKeyExchange : Sent S (Option Json) :=
  match net.send .keyExchange with
  | (log, .error error) => (log, none, .error error)
  | (log, .ok none) => (log, none, .ok none)
  | (log, .ok (some answer)) =>
    (log, (answer.ownerKey.filter (· ≠ "")).bind channel.derive, legacyJson channel answer.content)

def legacyManage (encoded : List UInt8) : Option S → Sent S (Option Json)
  | none => legacyKeyExchange channel net
  | some session =>
    match channel.encrypt session encoded with
    | none => legacyKeyExchange channel net
    | some _ =>
      let again (log : List Copy) : Sent S (Option Json) :=
        let next := legacyKeyExchange channel net
        (log ++ next.1, next.2)
      match net.send .sealed with
      | (log, .error error) => (log, some session, .error error)
      | (log, .ok none) => (log, none, .ok none)
      | (log, .ok (some answer)) =>
        if answer.status = 412 then again log
        else if answer.encrypted = some "1" then
          match channel.decrypt session answer.content with
          | none => again log
          | some content => (log, some session, legacyJson channel content)
        else (log, some session, legacyJson channel answer.content)

/-- The result of a command: that of the old endpoint, or a command of the owner. -/
inductive CommandRead (R : Type) where
  | succeeded (body : Json)
  | command (value : R)

def versionedManage : List Copy × Except ServerSharingError (CommandRead R) :=
  match net.send .versioned with
  | (log, .ok (some answer)) =>
    match (channel.loads answer.content).bind channel.validate with
    | none => (log, .error responseInvalid)
    | some value => (log, .ok (.command value))
  | (log, .ok none) => (log, .error responseInvalid)
  | (log, .error error) => (log, .error error)

/-- One call with the session of the cache; a payload that cannot be encoded is
refused. -/
def manage (encoded : Option (List UInt8)) (session : Option S) : Sent S (CommandRead R) :=
  match encoded with
  | none => ([], session, .error responseInvalid)
  | some encoded =>
    match legacyManage channel net encoded session with
    | (log, session, .error error) => (log, session, .error error)
    | (log, session, .ok (some value)) => (log, session, .ok (.succeeded value))
    | (log, session, .ok none) => (log ++ (versionedManage channel net).1, session, (versionedManage channel net).2)

/-- Each copy that another one follows was certainly not accepted. -/
def SubmittedOnce (log : List Copy) : Prop :=
  ∀ copy ∈ log.dropLast, copy.reply.unaccepted = true

/-- No address is asked after one that may have accepted the request. -/
def careful : List (String × Reply) → Bool
  | (_, reply) :: next :: rest => reply.answer?.isSome || reply.unaccepted && careful (next :: rest)
  | _ => true

/-- The first answer to a request. -/
def first (addresses : List (String × Reply)) : Option Answer :=
  addresses.findSome? fun address => address.2.answer?

/-- What the first answer makes of a request. -/
def Network.outcome (net : Network) (request : Request) : Except ServerSharingError (Option Answer) :=
  (first (net request)).elim (.error ownerUnavailable) (judge request)

/-- A content that is `null` is taken for no answer, so no address may be found
for the versioned endpoint. -/
def NullUnasked (content : List UInt8) : Prop :=
  channel.loads content = some .null → net .versioned = []

def KeyExchangeCareful : Prop :=
  careful (net .keyExchange) ∧ match net.outcome .keyExchange with
    | .ok none => careful (net .versioned)
    | .ok (some answer) => NullUnasked channel net answer.content
    | .error _ => True

/-- When no copy of an encoded command follows one that may have been accepted. -/
def Careful (session : Option S) (encoded : List UInt8) : Prop :=
  match session.filter fun session => (channel.encrypt session encoded).isSome with
  | none => KeyExchangeCareful channel net
  | some session =>
    careful (net .sealed) ∧ match net.outcome .sealed with
      | .ok none => careful (net .versioned)
      | .ok (some answer) =>
        if answer.status = 412 then KeyExchangeCareful channel net
        else match if answer.encrypted = some "1" then channel.decrypt session answer.content
          else some answer.content with
          | none => net .keyExchange = []
          | some content => NullUnasked channel net content
      | .error _ => True

variable {channel net} {request : Request} {answer : Answer} {later : List Copy} {addresses : List (String × Reply)}

section Requests

theorem SubmittedOnce.append {log : List Copy} : SubmittedOnce (log ++ later) ↔
    later = [] ∧ SubmittedOnce log ∨ later ≠ [] ∧ (∀ copy ∈ log, copy.reply.unaccepted = true) ∧
      SubmittedOnce later := by
  cases later with
  | nil => simp
  | cons copy rest =>
    rw [SubmittedOnce, SubmittedOnce, SubmittedOnce, List.dropLast_append_of_ne_nil (List.cons_ne_nil copy rest)]
    simp [or_imp, forall_and]

theorem requestBytes_eq_nil : (requestBytes request addresses).1 = [] ↔ addresses = [] := by
  cases addresses with
  | nil => exact ⟨fun _ => rfl, fun _ => rfl⟩
  | cons first rest =>
    rw [requestBytes]
    split <;> simp

theorem requestBytes_once : SubmittedOnce (requestBytes request addresses).1 ↔ careful addresses = true := by
  fun_induction careful addresses with
  | case1 address reply next rest ih =>
    rw [requestBytes]
    cases found : reply.answer? with
    | some answer => simp [SubmittedOnce]
    | none =>
      have more : (requestBytes request (next :: rest)).1 ≠ [] := fun none => by
        simpa using requestBytes_eq_nil.mp none
      have step := @SubmittedOnce.append (requestBytes request (next :: rest)).1 [⟨request, address, reply⟩]
      rw [List.singleton_append, ih] at step
      simp [step, more]
  | case2 addresses short =>
    match addresses with
    | [] => simp [requestBytes, SubmittedOnce]
    | [first] =>
      rw [requestBytes]
      split <;> simp [SubmittedOnce, requestBytes]
    | head :: next :: rest => exact absurd rfl (short head.1 head.2 next rest)

theorem requestBytes_outcome : (requestBytes request addresses).2 =
    (first addresses).elim (.error ownerUnavailable) (judge request) := by
  induction addresses with
  | nil => rfl
  | cons head rest ih =>
    rw [requestBytes, first, List.findSome?_cons]
    cases head.2.answer? with
    | some answer => rfl
    | none => exact ih

theorem send_outcome : (net.send request).2 = net.outcome request := requestBytes_outcome

theorem requestBytes_unaccepted (found : first addresses = some answer) :
    (∀ copy ∈ (requestBytes request addresses).1, copy.reply.unaccepted = true) ↔
      careful addresses = true ∧ (Reply.answered answer).unaccepted = true := by
  induction addresses with
  | nil => cases found
  | cons head rest ih =>
    rw [first, List.findSome?_cons] at found
    rw [requestBytes]
    cases told : head.2.answer? with
    | some other =>
      rw [told] at found
      cases found
      have same : head.2 = .answered answer := by
        cases reply : head.2 <;> simp_all [Reply.answer?]
      cases rest <;> simp [careful, same, Reply.answer?]
    | none =>
      rw [told] at found
      cases rest with
      | nil => cases found
      | cons next more => simp [careful, told, ih found, and_assoc]

theorem judge_none (judged : judge request answer = .ok none) : (Reply.answered answer).unaccepted = true := by
  unfold judge status at judged
  simp only [Reply.unaccepted]
  split_ifs at judged <;> simp_all [Except.map]

theorem judge_some {other : Answer} (judged : judge request answer = .ok (some other)) : other = answer ∧
    ((Reply.answered answer).unaccepted = true ↔ request = .sealed ∧ answer.status = 412) := by
  unfold judge status at judged
  simp only [Reply.unaccepted]
  split_ifs at judged <;> simp_all [Except.map]
  omega

theorem send_append (stops : ∀ error, net.outcome request = .error error → later = []) :
    SubmittedOnce ((net.send request).1 ++ later) ↔ careful (net request) = true ∧ match net.outcome request with
      | .ok none => later = [] ∨ SubmittedOnce later
      | .ok (some answer) => later = [] ∨ (request = .sealed ∧ answer.status = 412) ∧ SubmittedOnce later
      | .error _ => True := by
  rw [SubmittedOnce.append, Network.send, requestBytes_once]
  unfold Network.outcome at stops ⊢
  cases found : first (net request) with
  | none =>
    rw [found] at stops
    simp [stops _ rfl]
  | some answer =>
    rw [found, Option.elim_some] at stops
    rw [requestBytes_unaccepted found, Option.elim_some]
    cases judged : judge request answer with
    | error error => simp [stops error judged]
    | ok result =>
      cases result with
      | none =>
        by_cases last : later = []
        · simp [last]
        · simp [last, judge_none judged]
      | some other =>
        obtain ⟨rfl, accepted⟩ := judge_some judged
        by_cases last : later = []
        · simp [last]
        · simp only [last, accepted, false_and, false_or, ne_eq, not_false_eq_true, true_and, and_assoc]

end Requests

section Manage

variable {content : List UInt8} {session : Option S} {encoded : List UInt8}

/-- What `manage` sends after the old endpoint. -/
def tail (net : Network) : Except ServerSharingError (Option Json) → List Copy
  | .ok none => (net.send .versioned).1
  | _ => []

theorem manage_log : (manage channel net (some encoded) session).1 =
    (legacyManage channel net encoded session).1 ++ tail net (legacyManage channel net encoded session).2.2 := by
  have versioned : (versionedManage channel net).1 = (net.send .versioned).1 := by
    unfold versionedManage
    split
    · rename_i same
      split <;> rw [same]
    · rename_i same
      rw [same]
    · rename_i same
      rw [same]
  rw [manage]
  obtain ⟨log, later, outcome⟩ := legacyManage channel net encoded session
  match outcome with
  | .error error => exact (List.append_nil log).symm
  | .ok (some value) => exact (List.append_nil log).symm
  | .ok none => exact congrArg (log ++ ·) versioned

theorem tail_legacyJson : tail net (legacyJson channel content) = [] ↔ NullUnasked channel net content := by
  unfold legacyJson NullUnasked
  cases channel.loads content with
  | none => simp [tail]
  | some value => cases value <;> simp [tail, Network.send, requestBytes_eq_nil]

theorem versioned_once : (net.send .versioned).1 = [] ∨ SubmittedOnce (net.send .versioned).1 ↔
    careful (net .versioned) = true := by
  rw [← @requestBytes_once .versioned]
  exact or_iff_right_of_imp fun none => by rw [none]; exact nofun

/-- The copies of a key exchange and of what follows it. -/
def exchanged (channel : Channel S R) (net : Network) : List Copy :=
  (net.send .keyExchange).1 ++ match net.outcome .keyExchange with
    | .ok none => (net.send .versioned).1
    | .ok (some answer) => tail net (legacyJson channel answer.content)
    | .error _ => []

theorem exchanged_eq : (legacyKeyExchange channel net).1 ++ tail net (legacyKeyExchange channel net).2.2 =
    exchanged channel net := by
  rw [exchanged, ← send_outcome, legacyKeyExchange]
  obtain ⟨log, outcome⟩ := net.send .keyExchange
  match outcome with
  | .error _ | .ok none | .ok (some _) => rfl

theorem exchanged_eq_nil : exchanged channel net = [] ↔ net .keyExchange = [] := by
  rw [exchanged, List.append_eq_nil_iff, Network.send, requestBytes_eq_nil]
  refine ⟨fun all => all.1, fun none => ⟨none, ?_⟩⟩
  simp [Network.outcome, none, first]

theorem exchanged_once : SubmittedOnce (exchanged channel net) ↔ KeyExchangeCareful channel net := by
  rw [exchanged, send_append fun error failed => by rw [failed], KeyExchangeCareful]
  refine and_congr_right fun _ => ?_
  match net.outcome .keyExchange with
  | .error _ => rfl
  | .ok none => exact versioned_once
  | .ok (some answer) => simp [tail_legacyJson]

theorem sealed_log {cached : S} (sealed : (channel.encrypt cached encoded).isSome = true) :
    (legacyManage channel net encoded (some cached)).1 ++
      tail net (legacyManage channel net encoded (some cached)).2.2 =
      (net.send .sealed).1 ++ match net.outcome .sealed with
        | .ok none => (net.send .versioned).1
        | .ok (some answer) =>
          if answer.status = 412 then exchanged channel net
          else match if answer.encrypted = some "1" then channel.decrypt cached answer.content
            else some answer.content with
            | none => exchanged channel net
            | some content => tail net (legacyJson channel content)
        | .error _ => [] := by
  obtain ⟨bytes, sealed⟩ := Option.isSome_iff_exists.mp sealed
  rw [← send_outcome, ← exchanged_eq, legacyManage, sealed]
  dsimp only
  obtain ⟨log, outcome⟩ := net.send .sealed
  match outcome with
  | .error _ | .ok none => rfl
  | .ok (some answer) =>
    dsimp only
    split_ifs
    · exact List.append_assoc ..
    · split
      · exact List.append_assoc ..
      · rfl
    · rfl

theorem SubmittedOnce.count {log : List Copy} (once : SubmittedOnce log) :
    log.countP (fun copy => !copy.reply.unaccepted) ≤ 1 := by
  rcases List.eq_nil_or_concat log with rfl | ⟨before, last, rfl⟩
  · exact Nat.zero_le 1
  · rw [SubmittedOnce, List.concat_eq_append, List.dropLast_concat] at once
    have none : before.countP (fun copy => !copy.reply.unaccepted) = 0 :=
      List.countP_eq_zero.mpr fun copy here => by simp [once copy here]
    rw [List.concat_eq_append, List.countP_append, none, Nat.zero_add]
    exact List.countP_le_length

/-- One call sends the command again only after copies that were certainly not
accepted, just when each request and each answer leaves no doubt about it; and
then at most one copy was accepted. -/
theorem manage_submittedOnce (channel : Channel S R) (net : Network) (encoded : Option (List UInt8))
    (session : Option S) :
    (SubmittedOnce (manage channel net encoded session).1 ↔ ∀ bytes ∈ encoded, Careful channel net session bytes) ∧
    (SubmittedOnce (manage channel net encoded session).1 →
      (manage channel net encoded session).1.countP (fun copy => !copy.reply.unaccepted) ≤ 1) := by
  refine ⟨?_, SubmittedOnce.count⟩
  cases encoded with
  | none => simp [manage, SubmittedOnce]
  | some bytes =>
    rw [manage_log]
    simp only [Option.mem_some_iff, forall_eq']
    have plain := @exchanged_eq S R channel net ▸ @exchanged_once S R channel net
    cases session with
    | none => exact plain
    | some cached =>
      cases sealed : (channel.encrypt cached bytes).isSome with
      | false =>
        have kept : legacyManage channel net bytes (some cached) = legacyKeyExchange channel net := by
          rw [legacyManage, Option.isSome_eq_false_iff.mp sealed |> Option.isNone_iff_eq_none.mp]
        rw [kept, Careful, Option.filter_some, sealed]
        exact plain
      | true =>
        rw [sealed_log sealed, send_append fun error failed => by rw [failed], Careful, Option.filter_some, sealed]
        refine and_congr_right fun _ => ?_
        match net.outcome .sealed with
        | .error _ => rfl
        | .ok none => exact versioned_once
        | .ok (some answer) =>
          dsimp only
          by_cases expired : answer.status = 412
          · simp only [expired, if_true, true_and, exchanged_once, and_self]
            refine or_iff_right_of_imp fun none => exchanged_once.mp ?_
            rw [none]
            exact nofun
          · simp only [expired, if_false, and_false, false_and, or_false]
            split
            · exact exchanged_eq_nil
            · exact tail_legacyJson

/-- A session that decrypts nothing, and reads an empty object and `null`. -/
def emptyChannel : Channel Unit Unit where
  encrypt _ content := some content
  decrypt _ _ := none
  derive _ := none
  loads content :=
    if content = [0x7b, 0x7d] then some (.obj [])
      else if content = [0x6e, 0x75, 0x6c, 0x6c] then some .null else none
  validate _ := none

/-- An owner with two addresses: the first receives the key exchange and does not
answer in time. -/
def slowOwner : Network
  | .keyExchange => [("8.8.8.8", .broken none), ("8.8.4.4", .answered { status := 200, content := [0x7b, 0x7d] })]
  | _ => []

/-- An owner whose answer to the encrypted request cannot be decrypted. -/
def garbledOwner : Network
  | .sealed => [("8.8.8.8", .answered { status := 200, encrypted := some "1" })]
  | .keyExchange => [("8.8.8.8", .answered { status := 200, content := [0x7b, 0x7d] })]
  | .versioned => []

/-- An owner that answers `null` to the key exchange. -/
def nullOwner : Network
  | .keyExchange => [("8.8.8.8", .answered { status := 200, content := [0x6e, 0x75, 0x6c, 0x6c] })]
  | .versioned => [("8.8.8.8", .answered { status := 200, content := [0x7b, 0x7d] })]
  | .sealed => []

/-- A command is sent again, and both copies may have been accepted. -/
def Twice (net : Network) (session : Option Unit) : Prop :=
  ¬ SubmittedOnce (manage emptyChannel net (some [0x7b, 0x7d]) session).1 ∧
    (manage emptyChannel net (some [0x7b, 0x7d]) session).1.countP (fun copy => !copy.reply.unaccepted) = 2

/-- The command goes to the second address, under a new key or to the other endpoint. -/
theorem slowOwner_twice : Twice slowOwner none ∧ Twice garbledOwner (some ()) ∧ Twice nullOwner none := by
  unfold Twice SubmittedOnce
  decide

/-- The requests of copies with the addresses they went to. -/
def asked (log : List Copy) : List (Request × String) := log.map fun copy => (copy.request, copy.address)

def Network.pass (net : Network) (request : Request) : List (Request × String) :=
  (net request).map fun address => (request, address.1)

theorem send_pass : (asked (net.send request).1).Sublist (net.pass request) := by
  unfold Network.send Network.pass
  induction net request with
  | nil => exact List.nil_sublist _
  | cons head rest ih =>
    rw [requestBytes]
    split
    · exact (List.nil_sublist _).cons_cons _
    · exact ih.cons_cons _

theorem tail_pass (outcome : Except ServerSharingError (Option Json)) :
    (asked (tail net outcome)).Sublist (net.pass .versioned) := by
  unfold tail
  split
  · exact send_pass
  · exact List.nil_sublist _

theorem exchanged_pass :
    (asked (exchanged channel net)).Sublist (net.pass .keyExchange ++ net.pass .versioned) := by
  rw [exchanged, asked, List.map_append]
  refine send_pass.append ?_
  split
  · exact send_pass
  · exact tail_pass _
  · exact List.nil_sublist _

/-- One call asks each address at most once for each request: for the sealed command,
then for the key exchange, then at the versioned endpoint. -/
theorem manage_onePass (channel : Channel S R) (net : Network) (encoded : Option (List UInt8))
    (session : Option S) :
    (asked (manage channel net encoded session).1).Sublist
      (net.pass .sealed ++ (net.pass .keyExchange ++ net.pass .versioned)) := by
  cases encoded with
  | none => exact List.nil_sublist _
  | some bytes =>
    rw [manage_log]
    have plain := @exchanged_eq S R channel net ▸ @exchanged_pass S R channel net
    have skipped := plain.trans (List.sublist_append_right (net.pass .sealed) _)
    cases session with
    | none => exact skipped
    | some cached =>
      cases sealed : channel.encrypt cached bytes with
      | none =>
        rw [legacyManage, sealed]
        exact skipped
      | some _ =>
        rw [sealed_log (Option.isSome_iff_exists.mpr ⟨_, sealed⟩), asked, List.map_append]
        refine send_pass.append ?_
        have last {log : List Copy} (short : (asked log).Sublist (net.pass .versioned)) :=
          short.trans (List.sublist_append_right (net.pass .keyExchange) _)
        split
        · exact last send_pass
        · split_ifs
          · exact exchanged_pass
          · split
            · exact exchanged_pass
            · exact last (tail_pass _)
          · exact last (tail_pass _)
        · exact List.nil_sublist _

end Manage

end OpenNode.Federation
