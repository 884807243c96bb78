import OpenNode.SubscriptionTraffic

namespace OpenNode

open List Option

section Rows

variable {W : Type} {key : LedgerKey}

theorem Ledger.ingest_key [Add W] [SMul ℕ W] (ledger : Ledger W) (item : TrafficData) (attribution : Attribution W)
    (reportedAt now : Time) : (ledger.ingest item attribution reportedAt now).key = ledger.key := by
  unfold Ledger.ingest
  split <;> rfl

theorem Ledger.reset_key [Zero W] (ledger : Ledger W) (baseline : Option (TrafficData × Time)) (now : Time) :
    (ledger.reset baseline now).key = ledger.key := by
  cases baseline <;> rfl

theorem findLedger_key {ledgers : List (Ledger W)} {ledger : Ledger W}
    (found : findLedger key ledgers = some ledger) : ledger.key = key := by
  have holds := List.find?_some found
  simpa using holds

theorem any_key_eq_isSome (key : LedgerKey) (ledgers : List (Ledger W)) :
    ledgers.any (·.key = key) = (findLedger key ledgers).isSome := by
  rw [findLedger, Bool.eq_iff_iff, List.find?_isSome, List.any_eq_true]

variable {f : Ledger W → Ledger W}

theorem findLedger_map (keeps : ∀ ledger, (f ledger).key = ledger.key) (ledgers : List (Ledger W)) :
    findLedger key (ledgers.map f) = (findLedger key ledgers).map f := by
  have same : ((fun ledger : Ledger W => decide (ledger.key = key)) ∘ f) = fun ledger =>
      decide (ledger.key = key) := by
    funext ledger
    simp [keeps]
  rw [findLedger, List.find?_map, same]
  rfl

variable {p : Ledger W → Prop}

theorem findLedger_map_other [DecidablePred p] (keeps : ∀ ledger, (f ledger).key = ledger.key)
    (other : ∀ ledger, ledger.key = key → ¬ p ledger) (ledgers : List (Ledger W)) :
    findLedger key (ledgers.map fun ledger => if p ledger then f ledger else ledger) =
      findLedger key ledgers := by
  rw [findLedger_map]
  · cases found : findLedger key ledgers with
    | none => rfl
    | some ledger => rw [map_some, if_neg (other ledger (findLedger_key found))]
  · intro ledger
    split
    · exact keeps ledger
    · rfl

theorem findLedger_map_self [DecidablePred p] (keeps : ∀ ledger, (f ledger).key = ledger.key)
    (mine : ∀ ledger, ledger.key = key → p ledger) (ledgers : List (Ledger W)) :
    findLedger key (ledgers.map fun ledger => if p ledger then f ledger else ledger) =
      (findLedger key ledgers).map f := by
  rw [findLedger_map]
  · cases found : findLedger key ledgers with
    | none => rfl
    | some ledger => rw [map_some, map_some, if_pos (mine ledger (findLedger_key found))]
  · intro ledger
    split
    · exact keeps ledger
    · rfl

theorem findLedger_append (ledgers : List (Ledger W)) (ledger : Ledger W) : findLedger key (ledgers ++ [ledger]) =
      (findLedger key ledgers).or (if ledger.key = key then some ledger else none) := by
  rw [findLedger, List.find?_append, findLedger]
  by_cases mine : ledger.key = key <;> simp [mine]

section Telemetry

variable [Add W] [SMul ℕ W] {server : ServerId} {attribution : String → Option (Attribution W)}
  {reportedAt now : Time}

/-- The row of an email after a report that bills it to the row's user. -/
def billedRow (key : LedgerKey) (row : Option (Ledger W)) (item : TrafficData) (billed : Attribution W)
    (reportedAt now : Time) : Ledger W :=
  match row with
  | none => openLedger key item billed reportedAt now
  | some ledger => ledger.ingest item billed reportedAt now

/-- To whom a report bills the email of a key, when it is the key's user. -/
def billing (key : LedgerKey) (server : ServerId) (attribution : String → Option (Attribution W)) :
    Option (Attribution W) :=
  (attribution key.email).filter fun billed => billed.username = key.username ∧ server = key.serverId

theorem recordItem_other {ledgers : List (Ledger W)} {entry : String × TrafficData} (other : entry.1 ≠ key.email) :
    findLedger key (recordItem server attribution reportedAt now ledgers entry) = findLedger key ledgers := by
  unfold recordItem
  split
  · rfl
  · rename_i billed _
    dsimp only
    split
    · refine findLedger_map_other (fun ledger => ledger.ingest_key ..) ?_ ledgers
      intro ledger mine same
      exact other (congrArg LedgerKey.email (same.symm.trans mine))
    · rw [findLedger_append, if_neg, or_none]
      intro same
      exact other (congrArg LedgerKey.email same)

theorem recordItem_self (ledgers : List (Ledger W)) (item : TrafficData) :
    findLedger key (recordItem server attribution reportedAt now ledgers (key.email, item)) =
      match billing key server attribution with
      | none => findLedger key ledgers
      | some billed => some (billedRow key (findLedger key ledgers) item billed reportedAt now) := by
  unfold recordItem billing
  cases found : attribution key.email with
  | none => simp
  | some billed =>
    by_cases mine : billed.username = key.username ∧ server = key.serverId
    · obtain ⟨user, here⟩ := mine
      have same : ({ username := billed.username, serverId := server, email := key.email } : LedgerKey) = key := by
        rw [user, here]
      simp only [filter_some, user, here, and_self, decide_true, if_true]
      rw [any_key_eq_isSome]
      cases row : findLedger key ledgers with
      | none =>
        rw [if_neg (by simp), findLedger_append, row, none_or]
        exact if_pos rfl
      | some ledger =>
        rw [if_pos (by simp), findLedger_map_self (fun ledger => ledger.ingest_key ..) (fun _ h => h), row]
        rfl
    · have foreign : ({ username := billed.username, serverId := server, email := key.email } : LedgerKey) ≠
        key := by
        intro same
        exact mine ⟨congrArg LedgerKey.username same, congrArg LedgerKey.serverId same⟩
      simp only [filter_some, mine, decide_false, Bool.false_eq_true, if_false]
      split
      · exact findLedger_map_other (fun ledger => ledger.ingest_key ..)
          (fun ledger here same => foreign (same.symm.trans here)) ledgers
      · rw [findLedger_append, if_neg, or_none]
        exact fun same => foreign same

theorem recordItems_find {entries : List (String × TrafficData)} (nodup : (entries.map Prod.fst).Nodup)
    (ledgers : List (Ledger W)) :
    findLedger key (entries.foldl (recordItem server attribution reportedAt now) ledgers) =
      match entries.lookup key.email, billing key server attribution with
      | some item, some billed => some (billedRow key (findLedger key ledgers) item billed reportedAt now)
      | _, _ => findLedger key ledgers := by
  induction entries generalizing ledgers with
  | nil => rfl
  | cons entry rest ih =>
    obtain ⟨email, item⟩ := entry
    simp only [map_cons, nodup_cons] at nodup
    rw [foldl_cons, ih nodup.2, lookup_cons]
    by_cases same : key.email = email
    · subst same
      have absent : rest.lookup key.email = none := by
        rw [lookup_eq_none_iff]
        intro other member
        simp only [bne_iff_ne, ne_eq]
        intro equal
        exact nodup.1 (List.mem_map.mpr ⟨other, member, equal.symm⟩)
      rw [absent, beq_self_eq_true, recordItem_self]
      cases billing key server attribution <;> rfl
    · have other : (key.email == email) = false := by simpa using same
      rw [other, recordItem_other (Ne.symm same)]

end Telemetry

end Rows

namespace Accounting

variable {W : Type} {s : Accounting W} {key : LedgerKey}

/-- What a report says of a key: the counters of its email, and how they are
billed. -/
def observed (key : LedgerKey) (snapshot : TelemetrySnapshot)
    (attribution : String → Option (Attribution W)) : Option (TrafficData × Attribution W) :=
  match snapshot.stats.bind (·.user.get? key.email), billing key snapshot.serverId attribution with
  | some item, some billed => some (item, billed)
  | _, _ => none

theorem recordTelemetry_ledger? [Add W] [SMul ℕ W] (s : Accounting W) (snapshot : TelemetrySnapshot)
    (attribution : String → Option (Attribution W)) :
    (s.recordTelemetry snapshot attribution).ledger? key =
      match observed key snapshot attribution with
      | none => s.ledger? key
      | some (item, billed) =>
        some (billedRow key (s.ledger? key) item billed snapshot.reportedAt snapshot.receivedAt) := by
  change findLedger key (recordLedger s.ledgers snapshot attribution) = _
  unfold recordLedger observed
  cases snapshot.stats with
  | none => rfl
  | some stats =>
    rw [recordItems_find stats.user.nodup]
    simp only [bind_some, Dict.get?]
    cases stats.user.entries.lookup key.email with
    | none => rfl
    | some item => cases billing key snapshot.serverId attribution <;> rfl

/-- The credential for which a reset creates the row of a key. -/
def opener (s : Accounting W) (key : LedgerKey) (credentials : List TrafficCredential) :
    Option TrafficCredential :=
  credentials.find? fun credential =>
    credential.serverId = key.serverId ∧ (s.credentialBaseline credential).1 = key.email

/-- The row that a reset creates for a key. -/
def openedRow [Zero W] (s : Accounting W) (key : LedgerKey) (credentials : List TrafficCredential) (now : Time) :
    Option (Ledger W) :=
  (s.opener key credentials).map fun credential =>
    let (_, item, reportedAt) := s.credentialBaseline credential
    baselineLedger key.username credential key.email item reportedAt now

theorem resetCredentials_find [Zero W] (credentials : List TrafficCredential) (now : Time)
    (ledgers : List (Ledger W)) :
    findLedger key (credentials.foldl (s.resetCredential key.username now) ledgers) =
      (findLedger key ledgers).or (s.openedRow key credentials now) := by
  induction credentials generalizing ledgers with
  | nil => simp [openedRow, opener]
  | cons credential rest ih =>
    rw [foldl_cons, ih]
    have turn : findLedger key (s.resetCredential key.username now ledgers credential) =
        (findLedger key ledgers).or
          (if credential.serverId = key.serverId ∧ (s.credentialBaseline credential).1 = key.email then
            some (baselineLedger key.username credential key.email (s.credentialBaseline credential).2.1
              (s.credentialBaseline credential).2.2 now)
          else none) := by
      unfold resetCredential
      generalize s.credentialBaseline credential = based
      obtain ⟨email, item, reportedAt⟩ := based
      dsimp only
      by_cases mine : credential.serverId = key.serverId ∧ email = key.email
      · have same : ({ username := key.username, serverId := credential.serverId, email := email } : LedgerKey) =
            key := by rw [mine.1, mine.2]
        rw [if_pos mine, same, any_key_eq_isSome]
        cases row : findLedger key ledgers with
        | some ledger => rw [if_pos (by simp), row, some_or]
        | none =>
          rw [if_neg (by simp), findLedger_append, row, mine.2, if_pos]
          rw [← mine.2]
          exact same
      · rw [if_neg mine, or_none]
        split
        · rfl
        · rw [findLedger_append, if_neg, or_none]
          intro same
          exact mine ⟨congrArg LedgerKey.serverId same, congrArg LedgerKey.email same⟩
    rw [turn, Option.or_assoc]
    congr 1
    unfold openedRow opener
    rw [List.find?_cons]
    by_cases mine : credential.serverId = key.serverId ∧ (s.credentialBaseline credential).1 = key.email
    · simp [mine]
    · simp [mine]

theorem resetCredentials_other [Zero W] {username : String} (other : username ≠ key.username)
    (credentials : List TrafficCredential) (now : Time) (ledgers : List (Ledger W)) :
    findLedger key (credentials.foldl (s.resetCredential username now) ledgers) = findLedger key ledgers := by
  induction credentials generalizing ledgers with
  | nil => rfl
  | cons credential rest ih =>
    rw [foldl_cons, ih]
    unfold resetCredential
    dsimp only
    split
    · rfl
    · rw [findLedger_append, if_neg, or_none]
      intro same
      exact other (congrArg LedgerKey.username same)

theorem resetTraffic_ledger? [Zero W] (s : Accounting W) (username : String) (credentials : List TrafficCredential)
    (now : Time) :
    (s.resetTraffic username credentials now).ledger? key =
      if username = key.username then
        ((s.ledger? key).map fun ledger => ledger.reset (s.baseline key.serverId key.email) now).or
          (s.openedRow key credentials now)
      else s.ledger? key := by
  change findLedger key (credentials.foldl (s.resetCredential username now) (s.ledgers.map fun ledger =>
    if ledger.username = username then ledger.reset (s.baseline ledger.serverId ledger.email) now
    else ledger)) = _
  by_cases mine : username = key.username
  · subst mine
    rw [if_pos rfl, resetCredentials_find,
      findLedger_map_self (p := fun ledger => ledger.username = key.username)
        (f := fun ledger => ledger.reset (s.baseline ledger.serverId ledger.email) now)
        (fun ledger => ledger.reset_key ..) (fun ledger same => congrArg LedgerKey.username same)]
    congr 1
    cases row : findLedger key s.ledgers with
    | none => simp [ledger?, row]
    | some ledger =>
      have same := findLedger_key row
      have server : ledger.serverId = key.serverId := congrArg LedgerKey.serverId same
      have email : ledger.email = key.email := congrArg LedgerKey.email same
      rw [ledger?, row, map_some, map_some, server, email]
  · rw [if_neg mine, resetCredentials_other mine]
    refine findLedger_map_other (p := fun ledger => ledger.username = username)
      (f := fun ledger => ledger.reset (s.baseline ledger.serverId ledger.email) now)
      (fun ledger => ledger.reset_key ..) ?_ s.ledgers
    intro ledger same user
    exact mine (user.symm.trans (congrArg LedgerKey.username same))

end Accounting

end OpenNode
