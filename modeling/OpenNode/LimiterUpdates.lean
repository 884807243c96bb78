import OpenNode.ConnectionLimit
import OpenNode.LimiterServer

namespace OpenNode.NodeLimits

open List

variable {F : Type}

def Update.tags (changes : Update F) : List String :=
  changes.removals ++ changes.policies.map Policy.inboundTag

/-- The document that an update asks for: the old policies that it does not
mention, in order, then the new ones. -/
def Document.merge (d : Document F) (changes : Update F) : Document F :=
  { inbounds := (d.inbounds.filter fun p => p.inboundTag ∉ changes.tags) ++ changes.policies }

variable {encoding : Encoding F}

theorem Encoding.Lawful.revision_ne (lawful : encoding.Lawful) (d : Document F) :
    encoding.revision d ≠ "" := by
  unfold Encoding.revision
  split
  · exact lawful.sum256_ne _
  · exact lawful.sum256_ne _

variable {all : List String}

theorem checkRemovals_mem {replace tags : List String} (passed : checkRemovals replace tags = .ok all)
    (tag : String) :
    tag ∈ all ↔ tag ∈ replace ∨ tag ∈ tags := by
  induction tags generalizing replace with
  | nil =>
    cases passed
    simp
  | cons t rest ih =>
    unfold checkRemovals at passed
    split at passed
    · cases passed
    · rw [ih passed]
      simp only [mem_cons]
      tauto

variable {faults : Faults}

theorem attempt_eq_none {steps : List PersistStep} :
    attempt faults steps = none ↔ ∀ step ∈ steps, faults step = none := by
  simp [attempt, List.findSome?_eq_none_iff]

/-- The update gets as far as replacing the file: it can be read, it holds the
bytes that the manager remembers, and no step up to the renaming fails. -/
def Replaces (faults : Faults) (file : Option Bytes) (remembered : Option Bytes) : Prop :=
  (∃ current, readPolicy faults file = .ok current ∧ current.getD [] = remembered.getD []) ∧
    attempt faults replacingSteps = none

variable {file : Option Bytes} {raw : Bytes}

theorem persist_replaces {remembered : Option Bytes} (replaces : Replaces faults file remembered) :
    persist faults file raw remembered = (some raw, attempt faults directorySteps) := by
  obtain ⟨⟨current, found, same⟩, steps⟩ := replaces
  unfold persist
  rw [found]
  dsimp only
  rw [if_neg (not_not.mpr same), steps]

theorem persist_keeps {remembered : Option Bytes} (keeps : ¬ Replaces faults file remembered) :
    ∃ error, persist faults file raw remembered = (file, some error) := by
  unfold persist
  cases found : readPolicy faults file with
  | error error => exact ⟨error, rfl⟩
  | ok current =>
    dsimp only
    by_cases same : current.getD [] = remembered.getD []
    · rw [if_neg (not_not.mpr same)]
      cases steps : attempt faults replacingSteps with
      | none => exact absurd ⟨⟨current, found, same⟩, steps⟩ keeps
      | some error => exact ⟨error, rfl⟩
    · rw [if_pos same]
      exact ⟨_, rfl⟩

variable [Float64 F]

theorem checkPolicies_mem {policies : List (Policy F)} {replace : List String}
    (passed : checkPolicies replace policies = .ok all) (tag : String) :
    tag ∈ all ↔ tag ∈ replace ∨ tag ∈ policies.map Policy.inboundTag := by
  induction policies generalizing replace with
  | nil =>
    cases passed
    simp
  | cons p rest ih =>
    unfold checkPolicies at passed
    split at passed
    · cases passed
    · split at passed
      · cases passed
      · rw [ih passed]
        simp only [mem_cons, map_cons]
        tauto

variable {changes : Update F}

theorem Update.check_mem (passed : changes.check = .ok all) (tag : String) : tag ∈ all ↔ tag ∈ changes.tags := by
  unfold Update.check at passed
  split at passed
  · cases passed
  · split at passed
    · cases passed
    · rename_i removed
      rw [checkPolicies_mem passed, checkRemovals_mem removed, Update.tags, mem_append]
      simp

namespace Manager

variable {encoding : Encoding F} {m : Manager F} {changes : Update F} {expected : String} {document : Document F}
  {raw : Bytes}

theorem prepare_eq_ok (prepared : m.prepare encoding changes expected = .ok (document, raw)) :
    document = m.document.merge changes ∧ document.validate = none ∧ encoding.marshal document = .ok raw ∧
      raw.length ≤ maxBytes ∧ (expected = "" ∨ expected = encoding.revision m.document) := by
  unfold prepare at prepared
  split at prepared
  · cases prepared
  · rename_i current
    split at prepared
    · cases prepared
    · rename_i replace checked
      dsimp only at prepared
      split at prepared
      · cases prepared
      · rename_i valid
        split at prepared
        · cases prepared
        · rename_i encoded
          split at prepared
          · cases prepared
          · rename_i bounded
            cases prepared
            refine ⟨?_, valid, encoded, by omega, by tauto⟩
            have mentioned : ∀ p : Policy F, (!replace.contains p.inboundTag) =
                decide (p.inboundTag ∉ changes.tags) := by
              intro p
              have := Update.check_mem checked p.inboundTag
              by_cases member : p.inboundTag ∈ replace <;> simp_all
            simp only [mentioned, Document.merge]

variable [DecidableEq F]

variable {faults : Faults} {file : Option Bytes}

theorem apply_refused {error : String} (refused : m.prepare encoding changes expected = .error error) :
    m.apply encoding faults file changes expected = (m, file, some error) := by
  unfold apply
  rw [refused]

theorem apply_keeps (prepared : m.prepare encoding changes expected = .ok (document, raw))
    (keeps : ¬ Replaces faults file m.raw) :
    ∃ error, m.apply encoding faults file changes expected = (m, file, some error) := by
  obtain ⟨error, kept⟩ : ∃ error, persist faults file raw m.raw = (file, some error) := persist_keeps keeps
  refine ⟨error, ?_⟩
  unfold apply
  rw [prepared]
  dsimp only
  rw [kept]

theorem apply_replaces (prepared : m.prepare encoding changes expected = .ok (document, raw))
    (replaces : Replaces faults file m.raw) :
    m.apply encoding faults file changes expected =
      match attempt faults directorySteps with
      | some error => (m, some raw, some error)
      | none => ((m.install document (some raw)).1, some raw, none) := by
  unfold apply
  rw [prepared]
  dsimp only
  rw [persist_replaces replaces]
  cases attempt faults directorySteps <;> rfl

theorem load_written (bounded : raw.length ≤ maxBytes) (decoded : encoding.decode raw = .ok document)
    (valid : document.validate = none) (now : Time) :
    ∃ fresh, load encoding (fun _ => none) (some raw) now = .ok fresh ∧ fresh.document = document ∧
      fresh.raw = some raw := by
  have read : readPolicy (fun _ => none) (some raw) = .ok (some raw) := by
    unfold readPolicy
    dsimp only
    rw [if_neg (by omega)]
  let first : Manager F := { lastTick := now }
  refine ⟨(first.install document (some raw)).1, ?_, install_document first document (some raw),
    install_raw first document (some raw)⟩
  unfold load
  rw [read]
  dsimp only
  rw [decoded]
  dsimp only
  rw [valid]

/-- A successful update has put the merged document in force, in memory and on disk. -/
structure Applied (encoding : Encoding F) (before : Manager F) (changes : Update F) (after : Manager F)
    (file : Option Bytes) : Prop where
  document : after.document = before.document.merge changes
  remembered : ∃ raw, after.raw = some raw ∧ file = some raw ∧ encoding.decode raw = .ok after.document
  reloaded : ∀ now, ∃ fresh, load encoding (fun _ => none) file now = .ok fresh ∧
    fresh.document = after.document ∧ fresh.raw = after.raw
  tags : (after.document.inbounds.map Policy.inboundTag).Nodup
  valid : after.document.validate = none

/-- An update is all or nothing: a failed one leaves the manager and the file as
they were. -/
def UpdateAtomic (encoding : Encoding F) (faults : Faults) (m : Manager F) (file : Option Bytes)
    (changes : Update F) (expected : String) : Prop :=
  match m.apply encoding faults file changes expected with
  | (after, file', some _) => after = m ∧ file' = file
  | (after, file', none) => Applied encoding m changes after file'

/-- Once the file is replaced by other bytes, no step fails. -/
def SettledOnceReplaced (encoding : Encoding F) (faults : Faults) (m : Manager F) (file : Option Bytes)
    (changes : Update F) (expected : String) : Prop :=
  ∀ document raw, m.prepare encoding changes expected = .ok (document, raw) → Replaces faults file m.raw →
    file ≠ some raw → ∀ step ∈ directorySteps, faults step = none

theorem updateAtomic_iff (lawful : encoding.Lawful) (faults : Faults) (m : Manager F) (file : Option Bytes)
    (changes : Update F) (expected : String) :
    m.UpdateAtomic encoding faults file changes expected ↔
      m.SettledOnceReplaced encoding faults file changes expected := by
  unfold UpdateAtomic SettledOnceReplaced
  cases prepared : m.prepare encoding changes expected with
  | error error =>
    rw [apply_refused prepared]
    constructor
    · intro _ _ _ ok
      cases ok
    · intro _
      exact ⟨rfl, rfl⟩
  | ok result =>
    obtain ⟨document, raw⟩ := result
    by_cases replaces : Replaces faults file m.raw
    · rw [apply_replaces prepared replaces]
      cases synced : attempt faults directorySteps with
      | none =>
        obtain ⟨merged, valid, encoded, bounded, _⟩ := prepare_eq_ok prepared
        have inForce := install_document m document (some raw)
        have remembered := install_raw m document (some raw)
        have decoded := lawful.decode_marshal document raw encoded bounded
        constructor
        · intro _ _ _ _ _ _
          exact attempt_eq_none.mp synced
        · intro _
          refine
            { document := inForce.trans merged
              remembered := ⟨raw, remembered, rfl, by rw [decoded, inForce]⟩
              reloaded := fun now => ?_
              tags := by rw [inForce]; exact (Document.validate_valid valid).tags
              valid := by rw [inForce, valid] }
          obtain ⟨fresh, read, same, bytes⟩ := load_written bounded decoded valid now
          exact ⟨fresh, read, same.trans inForce.symm, bytes.trans remembered.symm⟩
      | some error =>
        constructor
        · rintro ⟨_, same⟩ _ _ ok _ differs
          cases ok
          exact absurd same.symm differs
        · intro settled
          refine ⟨rfl, ?_⟩
          by_contra differs
          have quiet := settled document raw rfl replaces (Ne.symm differs)
          rw [attempt_eq_none.mpr quiet] at synced
          cases synced
    · obtain ⟨error, kept⟩ := apply_keeps prepared replaces
      rw [kept]
      exact ⟨fun _ _ _ _ reached => absurd reached replaces, fun _ => ⟨rfl, rfl⟩⟩

theorem apply_outcome {after : Manager F} {file' : Option Bytes} {error : Option String}
    (run : m.apply encoding faults file changes expected = (after, file', error)) :
    error.isNone = false ∧ after.document = m.document ∨
      error.isNone = true ∧ after.document = m.document.merge changes ∧
        (expected = "" ∨ expected = encoding.revision m.document) := by
  cases prepared : m.prepare encoding changes expected with
  | error refusal =>
    cases (apply_refused prepared).symm.trans run
    exact .inl ⟨rfl, rfl⟩
  | ok result =>
    obtain ⟨document, raw⟩ := result
    by_cases replaces : Replaces faults file m.raw
    · have done := (apply_replaces prepared replaces).symm.trans run
      cases synced : attempt faults directorySteps with
      | some failure =>
        rw [synced] at done
        cases done
        exact .inl ⟨rfl, rfl⟩
      | none =>
        rw [synced] at done
        cases done
        obtain ⟨merged, _, _, _, allowed⟩ := prepare_eq_ok prepared
        exact .inr ⟨rfl, (install_document m document (some raw)).trans merged, allowed⟩
    · obtain ⟨failure, kept⟩ := apply_keeps prepared replaces
      cases kept.symm.trans run
      exact .inl ⟨rfl, rfl⟩

theorem step_document {n : Manager F} {event : LimiterEvent F}
    (fixed : ∀ document raw, event ≠ .install document raw)
    (run : m.step event = some n) :
    n.document = m.document := by
  cases event with
  | install document raw => exact absurd rfl (fixed document raw)
  | acquire session now =>
    cases run
    rcases m.acquire_cases session now with same | ⟨_, rejected⟩ | ⟨tag, email, n, id, _, _, found, admitted⟩
    · rw [same]
    · rw [rejected]
    · rw [admitted]
      show n.document = m.document
      rw [stateFor_frame found]
  | release flow now =>
    cases run
    unfold Manager.release
    split
    · rfl
    · split <;> rfl
  | transfer flow bytes =>
    cases run
    unfold Manager.transfer
    split <;> rfl
  | evaluate now => rw [evaluate_frame run]

end Manager

/-- A limiter with its policy file and the clients that have read its document. -/
structure ServerState (F : Type) where
  manager : Manager F
  file : Option Bytes
  snapshots : Nat → Option (Manager.Snapshot F) := fun _ => none

/-- A successful update: the policies that its client had read, if it wrote with
a revision, the document that it replaced, and its changes. -/
structure Commit (F : Type) where
  base : Option (List (Policy F))
  replaced : Document F
  changes : Update F

/-- The updates once one has ended. -/
def record (error : Option String) (commits : List (Commit F)) (commit : Commit F) : List (Commit F) :=
  if error.isNone then commits ++ [commit] else commits

/-- The runs of a limiter and its clients, with the successful updates. Clients
read, and write with the revision they have read or with none; any step of a
write can fail, the file can be edited, and connections come and go. -/
inductive ServerRun [DecidableEq F] (encoding : Encoding F) (first : ServerState F) :
    List (Commit F) → ServerState F → Prop
  | start : ServerRun encoding first [] { first with snapshots := fun _ => none }
  | read {commits : List (Commit F)} {s : ServerState F} (client : Nat) : ServerRun encoding first commits s →
      ServerRun encoding first commits
        { s with snapshots := Function.update s.snapshots client (some (s.manager.snapshot encoding)) }
  | write {commits : List (Commit F)} {s : ServerState F} {client : Nat} {read : Manager.Snapshot F} {m : Manager F}
      {file : Option Bytes} {error : Option String} (changes : Update F) (faults : Faults) :
      ServerRun encoding first commits s → s.snapshots client = some read →
      s.manager.apply encoding faults s.file changes read.revision = (m, file, error) →
      ServerRun encoding first
        (record error commits { base := some read.inbounds, replaced := s.manager.document, changes := changes })
        { s with manager := m, file := file }
  | overwrite {commits : List (Commit F)} {s : ServerState F} {m : Manager F} {file : Option Bytes}
      {error : Option String} (changes : Update F) (faults : Faults) :
      ServerRun encoding first commits s → s.manager.apply encoding faults s.file changes "" = (m, file, error) →
      ServerRun encoding first
        (record error commits { base := none, replaced := s.manager.document, changes := changes })
        { s with manager := m, file := file }
  | edit {commits : List (Commit F)} {s : ServerState F} (file : Option Bytes) : ServerRun encoding
      first commits s →
      ServerRun encoding first commits { s with file := file }
  | limiter {commits : List (Commit F)} {s : ServerState F} {m : Manager F} (event : LimiterEvent F) :
      ServerRun encoding first commits s → (∀ document raw, event ≠ .install document raw) →
      s.manager.step event = some m → ServerRun encoding first commits { s with manager := m }

/-- Successful updates that follow one another from a document to a document. -/
def Chain : Document F → List (Commit F) → Document F → Prop
  | d, [], now => now = d
  | d, commit :: rest, now => commit.replaced = d ∧ Chain (d.merge commit.changes) rest now

/-- The documents that have been in force. -/
def inForce (first : Document F) (commits : List (Commit F)) : List (Document F) :=
  first :: commits.map fun commit => commit.replaced.merge commit.changes

/-- No successful update is lost: each replaced the result of the one before,
and was computed from what it replaced. -/
structure UpdatesKept (first : Document F) (commits : List (Commit F)) (now : Document F) : Prop where
  based : ∀ commit ∈ commits, ∀ base, commit.base = some base → base = commit.replaced.inbounds
  chained : Chain first commits now

variable {commits : List (Commit F)}

omit [Float64 F] in
theorem Chain.concat {d now : Document F} (chained : Chain d commits now) {commit : Commit F}
    (replaced : commit.replaced = now) :
    Chain d (commits ++ [commit]) (now.merge commit.changes) := by
  induction commits generalizing d with
  | nil =>
    cases chained
    exact ⟨replaced, rfl⟩
  | cons c rest ih => exact ⟨chained.1, ih chained.2⟩

omit [Float64 F] in
theorem Chain.mem_inForce {d now : Document F} (chained : Chain d commits now) : now ∈ inForce d commits := by
  induction commits generalizing d with
  | nil => exact chained ▸ mem_cons_self
  | cons c rest ih =>
    obtain ⟨rfl, later⟩ := chained
    exact mem_cons_of_mem _ (ih later)

omit [Float64 F] in
theorem inForce_concat (d : Document F) (commits : List (Commit F)) (commit : Commit F) :
    inForce d (commits ++ [commit]) = inForce d commits ++ [commit.replaced.merge commit.changes] := by
  simp [inForce]

variable {first : Document F}

omit [Float64 F] in
theorem mem_inForce_record {d : Document F} (member : d ∈ inForce first commits) (error : Option String)
    (commit : Commit F) : d ∈ inForce first (record error commits commit) := by
  unfold record
  split
  · rw [inForce_concat]
    exact mem_append_left _ member
  · exact member

/-- The updates of a run so far, and the documents that its clients have read. -/
structure ServerInvariant (encoding : Encoding F) (first : Document F) (commits : List (Commit F))
    (s : ServerState F) : Prop where
  kept : UpdatesKept first commits s.manager.document
  snapshots : ∀ client read, s.snapshots client = some read → ∃ d ∈ inForce first commits,
    read.revision = encoding.revision d ∧ read.inbounds = d.inbounds

theorem ServerInvariant.apply [DecidableEq F] {s : ServerState F} (sound : ServerInvariant encoding first commits s)
    {m : Manager F} {expected : String} {error : Option String} {base : Option (List (Policy F))}
    (run : s.manager.apply encoding faults s.file changes expected = (m, file, error))
    (based : expected = "" ∨ expected = encoding.revision s.manager.document → ∀ policies, base = some policies →
      policies = s.manager.document.inbounds) :
    ServerInvariant encoding first
      (record error commits { base := base, replaced := s.manager.document, changes := changes })
      { s with manager := m, file := file } := by
  rcases Manager.apply_outcome run with ⟨failed, same⟩ | ⟨succeeded, merged, allowed⟩
  · rw [record, failed, if_neg Bool.false_ne_true]
    exact ⟨⟨sound.kept.based, same ▸ sound.kept.chained⟩, sound.snapshots⟩
  · rw [record, succeeded, if_pos rfl]
    refine ⟨⟨fun commit member policies read => ?_, ?_⟩, fun client read found => ?_⟩
    · rcases List.mem_append.mp member with old | new
      · exact sound.kept.based commit old policies read
      · cases List.mem_singleton.mp new
        exact based allowed policies read
    · have replaced : Commit.replaced { base := base, replaced := s.manager.document, changes := changes } =
          s.manager.document := rfl
      have chained := sound.kept.chained.concat replaced
      show Chain first _ m.document
      rw [merged]
      exact chained
    · obtain ⟨d, member, revision, inbounds⟩ := sound.snapshots client read found
      exact ⟨d, inForce_concat first commits _ ▸ mem_append_left _ member, revision, inbounds⟩

theorem ServerRun.invariant [DecidableEq F] (lawful : encoding.Lawful) {first s : ServerState F}
    (run : ServerRun encoding first commits s)
    (injective : ∀ d ∈ inForce first.manager.document commits, ∀ d' ∈ inForce first.manager.document commits,
      encoding.revision d = encoding.revision d' → d = d') :
    ServerInvariant encoding first.manager.document commits s := by
  induction run with
  | start => exact ⟨⟨nofun, rfl⟩, nofun⟩
  | @read commits s client _ ih =>
    have sound := ih injective
    refine ⟨sound.kept, fun other read found => ?_⟩
    dsimp only at found
    by_cases same : other = client
    · subst same
      rw [Function.update_self] at found
      cases found
      exact ⟨s.manager.document, sound.kept.chained.mem_inForce, rfl, rfl⟩
    · rw [Function.update_of_ne same] at found
      exact sound.snapshots other read found
  | @write commits s client read m file error changes faults _ found applied ih =>
    have earlier {d : Document F} (member : d ∈ inForce first.manager.document commits) :=
      mem_inForce_record member error
        { base := some read.inbounds, replaced := s.manager.document, changes := changes }
    have sound := ih fun d member d' member' => injective d (earlier member) d' (earlier member')
    refine sound.apply applied fun allowed policies base => ?_
    cases base
    obtain ⟨d, member, revision, inbounds⟩ := sound.snapshots client read found
    have same : encoding.revision d = encoding.revision s.manager.document := by
      rcases allowed with empty | current
      · exact absurd (revision.symm.trans empty) (lawful.revision_ne d)
      · exact revision.symm.trans current
    have current := injective d (earlier member) _ (earlier sound.kept.chained.mem_inForce) same
    rw [inbounds, current]
  | @overwrite commits s m file error changes faults _ applied ih =>
    have earlier {d : Document F} (member : d ∈ inForce first.manager.document commits) :=
      mem_inForce_record member error { base := none, replaced := s.manager.document, changes := changes }
    have sound := ih fun d member d' member' => injective d (earlier member) d' (earlier member')
    exact sound.apply applied fun _ _ none => nomatch none
  | edit file _ ih => exact ⟨(ih injective).kept, (ih injective).snapshots⟩
  | limiter event _ fixed turn ih =>
    have sound := ih injective
    refine ⟨?_, sound.snapshots⟩
    rw [show _ = _ from Manager.step_document fixed turn]
    exact sound.kept

/-- What the limiter promises about updates: each is atomic as long as no step
fails once the file is replaced, and no successful one is lost. -/
structure UpdatePromise [DecidableEq F] (encoding : Encoding F) : Prop where
  atomic : ∀ faults m file changes expected, Manager.UpdateAtomic encoding faults m file changes expected ↔
    Manager.SettledOnceReplaced encoding faults m file changes expected
  kept : ∀ first commits s, ServerRun encoding first commits s →
    (∀ d ∈ inForce first.manager.document commits, ∀ d' ∈ inForce first.manager.document commits,
      encoding.revision d = encoding.revision d' → d = d') →
    UpdatesKept first.manager.document commits s.manager.document

theorem Encoding.Lawful.updatePromise [DecidableEq F] {encoding : Encoding F} (lawful : encoding.Lawful) :
    UpdatePromise encoding where
  atomic faults m file changes expected := Manager.updateAtomic_iff lawful faults m file changes expected
  kept _ _ _ run injective := (run.invariant lawful injective).kept

section Example

def utf8 (text : String) : Bytes := text.toList.map fun c => UInt8.ofNat c.toNat

def emptyJson : Bytes := utf8 "\x7b\"version\":1,\"inbounds\":[]\x7d"

def aliceJson : Bytes :=
  utf8 ("\x7b\"version\":1,\"inbounds\":[\x7b\"inbound_tag\":\"in\",\"node_limit\":0,\"users\":[\x7b\"uid\":0," ++
    "\"email\":\"alice\",\"speed_limit\":0,\"device_limit\":1,\"conn_group\":\"account\"\x7d]," ++
    "\"auto_speed_rules\":[]\x7d]\x7d")

/-- The encoding of the empty document and of alice's. -/
def aliceEncoding : Encoding ℚ where
  marshal d :=
    if d = {} then .ok emptyJson else if d = aliceDocument then .ok aliceJson else .error "not encoded here"
  decode raw :=
    if raw = emptyJson then .ok {}
    else if raw = aliceJson then .ok aliceDocument
    else .error "invalid limiter JSON"
  sum256 raw :=
    if raw = emptyJson then "b1db2453a627890a35e33729b5a2e9e8ae97dec33c673158ef1acae737ec7d04"
    else if raw = aliceJson then "06ae419383c87cdbff711b1f174dea848f43a4eadcf83ebdb67fc67fea2dbb1b"
    else "e3b0c44298fc1c149afbf4c8996fb92427ae41e4649b934ca495991b7852b855"

theorem aliceEncoding_lawful : aliceEncoding.Lawful where
  decode_marshal d raw encoded _ := by
    have apart : aliceJson ≠ emptyJson := by decide +kernel
    simp only [aliceEncoding] at encoded ⊢
    split at encoded
    · rename_i empty
      rw [← Except.ok.inj encoded, if_pos rfl, empty]
    · split at encoded
      · rename_i alice
        rw [← Except.ok.inj encoded, if_neg apart, if_pos rfl, alice]
      · cases encoded
  sum256_ne raw := by
    simp only [aliceEncoding]
    split
    · decide
    · split <;> decide

theorem aliceEncoding_updatePromise : UpdatePromise aliceEncoding :=
  aliceEncoding_lawful.updatePromise

/-- Every update is atomic, whichever step fails. -/
def AllUpdatesAtomic (encoding : Encoding ℚ) : Prop :=
  ∀ faults m file changes expected, Manager.UpdateAtomic encoding faults m file changes expected

/-- A disk whose directory cannot be synced. -/
def unsyncedDirectory : Faults := fun step => if step = .syncDirectory then some "input/output error" else none

/-- The first update of a new manager on such a disk leaves a file that the
manager does not know. -/
theorem unsyncedDirectory_not_atomic : ¬ AllUpdatesAtomic aliceEncoding := by
  intro atomic
  simp only [AllUpdatesAtomic, Manager.updateAtomic_iff aliceEncoding_lawful] at atomic
  have prepared : (Manager.new 0).prepare aliceEncoding { policies := aliceDocument.inbounds } "" =
      .ok (aliceDocument, aliceJson) := by decide +kernel
  have synced := atomic unsyncedDirectory _ none _ _ _ _ prepared ⟨⟨none, rfl, rfl⟩,
    rfl⟩ nofun .syncDirectory (by decide)
  exact absurd synced (by decide)

end Example

end OpenNode.NodeLimits
