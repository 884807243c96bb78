import OpenNode.BrowserRestore

namespace OpenNode.Restore

open AList Interruption List Program RestoreState String

variable {E D : Type}

section Names

theorem removePrefix?_eq_some {start text rest : String} :
    removePrefix? start text = some rest ↔ text.toList = start.toList ++ rest.toList := by
  unfold removePrefix?
  constructor
  · intro found
    split at found
    · rename_i begins
      obtain ⟨tail, same⟩ := List.isPrefixOf_iff_prefix.mp begins
      cases found
      rw [← same, toList_ofList, drop_left]
    · cases found
  · intro same
    rw [if_pos (List.isPrefixOf_iff_prefix.mpr ⟨_, same.symm⟩), same, drop_left, ofList_toList]

theorem rollbackOf_eq_some {name id : String} : rollbackOf (.text name) = some id ↔
    name = rollbackPrefix ++ id := by
  unfold rollbackOf
  rw [removePrefix?_eq_some, ← toList_append]
  exact toList_inj

theorem orphanRestoreName_rollback (id : String) : orphanRestoreName (.text (rollbackPrefix ++ id)) = false := by
  have restore : removePrefix? ".open-node-restore-" (rollbackPrefix ++ id) = some ("rollback-" ++ id) := by
    rw [removePrefix?_eq_some, toList_append, toList_append]
    rfl
  have pending : removePrefix? pendingPrefix (rollbackPrefix ++ id) = none := by
    unfold removePrefix?
    rw [if_neg]
    rw [toList_append]
    simp [pendingPrefix, rollbackPrefix]
  unfold orphanRestoreName isTemporaryRestore
  dsimp only
  rw [restore, pending]
  simp [isHex]

theorem orphanRestoreName_pending {id : String} (identifier : isIdentifier id = true) :
    orphanRestoreName (.text (pendingPrefix ++ id)) = true := by
  have pending : removePrefix? pendingPrefix (pendingPrefix ++ id) = some id := by
    rw [removePrefix?_eq_some, toList_append]
  unfold orphanRestoreName
  dsimp only
  rw [pending]
  simp [identifier]

theorem activationMarker_names : orphanRestoreName activationMarker = false ∧
    rollbackOf activationMarker = none := by
  decide

/-- A name that the switch itself gives no meaning. -/
def Plain (name : String) : Prop :=
  .text name ≠ activationMarker ∧ orphanRestoreName (.text name) = false ∧ rollbackOf (.text name) = none

end Names

/-- What a browser restore switches: the entries of the state directory, the
entries of the prepared directory and the earlier rollback directories, by name;
and whether abandoned restores may lie in the state directory. -/
structure Switch (E : Type) where
  value : Marker
  abandoned : Bool
  old : String → Option (Entry E)
  new : String → Option (Entry E)
  rollbacks : String → Option (Directory (Entry E))
  valid : value.valid = true
  prepared : value.phase = .prepared
  sqlite : value.databaseEngine = .sqlite
  old_names : ∀ name entry, old name = some entry → Plain name ∧ entryName (.text name) = true
  new_names : ∀ name entry, new name = some entry → Plain name ∧ entryName (.text name) = true
  required : ∀ name ∈ requiredEntries .sqlite, ∃ text, name = .text text ∧ (new text).isSome = true
  no_stage : ∀ name, .text name = postgresRestoreMetadata → new name = none
  rollbacks_names : ∀ id entries, rollbacks id = some entries → isIdentifier id = true ∧ id ≠ value.requestId

/-- The names in the state directory without the abandoned restores, and the
rollback directory of the request, can be listed. -/
def Roomy (value : Marker) (s : RestoreState E D) : Prop :=
  ∃ names : List EntryName, names.length ≤ maxTopLevelEntries ∧ value.rollbackName ∈ names ∧
    ∀ name, (s.root.lookup name).isSome = true → (orphanRestoreName name = true → name = value.pendingName) →
      name ∈ names

/-- A start can read a recorded marker, and it can list the directory. -/
def Fit (host : RestoreHost E) (s : RestoreState E D) : Prop :=
  ∀ value twin, s.root.lookup activationMarker = some (.marker value twin) → twin = none ∧
    1 < host.markerBytes value ∧ host.markerBytes value ≤ maxMarkerBytes ∧
    (value.phase.unswitched = true → Roomy value s)

namespace Switch

variable (x : Switch E)

/-- What the root holds under a name, once some entries were moved out and some in. -/
def rootEntry (out moved : String → Bool) (name : String) : Option (Entry E) :=
  if moved name then x.new name else if out name then none else x.old name

/-- The temporary files of the journal that were left behind. -/
def Tidy (s : RestoreState E D) : Prop :=
  ∀ serial node, s.root.lookup (.temporary serial) = some node → serial < s.serial ∧ node = .entry .temporary

/-- The state directory, name by name. -/
structure Layout (marker : Option (Node E)) (pending rollback : Option (Directory (Entry E)))
    (out moved : String → Bool) (s : RestoreState E D) : Prop where
  marker : s.root.lookup activationMarker = marker
  pending : s.root.lookup x.value.pendingName = pending.map .directory
  rollback : s.root.lookup x.value.rollbackName = rollback.map .directory
  rollbacks : ∀ id ≠ x.value.requestId,
    s.root.lookup (.text (rollbackPrefix ++ id)) = (x.rollbacks id).map .directory
  entries : ∀ name, Plain name → s.root.lookup (.text name) = (x.rootEntry out moved name).map .entry
  orphans : ∀ name node, orphanRestoreName name = true → name ≠ x.value.pendingName →
    s.root.lookup name = some node → x.abandoned = true ∧
      ∃ entries, node = .directory entries ∧ entries.lookup postgresRestoreMetadata = none
  temporaries : Tidy s

/-- The marker with a phase and two lists. -/
def marked (phase : RestorePhase) (old new : List EntryName) : Marker :=
  { x.value with phase := phase, oldEntries := old, newEntries := new }

def nothing : String → Bool := fun _ => false
def everything : String → Bool := fun _ => true

/-- The prepared directory. -/
def Full (pending : Directory (Entry E)) (moved : String → Bool) : Prop :=
  ∀ name, pending.lookup name =
    match name with
    | .text text => if moved text then none else x.new text
    | .temporary _ => none

/-- The switch once the abandoned restores were removed. -/
def cleaned : Switch E :=
  { x with abandoned := false }

/-- Before the marker is published. -/
def Unpublished (s : RestoreState E D) : Prop :=
  ∃ pending, x.Layout none pending none nothing nothing s ∧
    ∀ entries, pending = some entries → entries.lookup postgresRestoreMetadata = none

/-- Nothing was moved yet, although the lists may be recorded. -/
def Prepared (old new : List EntryName) (twin : Option Nat) (s : RestoreState E D) : Prop :=
  (x.marked .prepared old new).valid = true ∧ ∃ pending rollback,
    x.Layout (some (.marker (x.marked .prepared old new) twin)) (some pending) rollback nothing nothing s ∧
    x.Full pending nothing ∧ pending.keys.length ≤ maxTopLevelEntries ∧
    ∀ entries, rollback = some entries → ∀ name, entries.lookup name = none

/-- The recorded lists are those of the entries. -/
structure Lists (old new : List EntryName) : Prop where
  old : ∀ name, .text name ∈ old ↔ (x.old name).isSome = true
  new : ∀ name, name ∈ new ↔ ∃ text, name = .text text ∧ (x.new text).isSome = true

/-- Some of the old entries are in the rollback directory. -/
def MovingOld (old new : List EntryName) (out : String → Bool) (s : RestoreState E D) : Prop :=
  (x.marked .movingOld old new).valid = true ∧ x.Lists old new ∧ ∃ pending rollback,
    x.Layout (some (.marker (x.marked .movingOld old new) none)) (some pending) (some rollback) out nothing s ∧
    x.Full pending nothing ∧ (∀ name, rollback.lookup (.text name) = if out name then x.old name else none) ∧
    ∀ serial, .temporary serial ∈ old → serial < s.serial ∧
      (s.root.lookup (.temporary serial)).isSome ≠ (rollback.lookup (.temporary serial)).isSome

/-- All of the old entries are in the rollback directory, and some of the new ones in the root. -/
def MovingNew (old new : List EntryName) (moved : String → Bool) (s : RestoreState E D) : Prop :=
  (x.marked .movingNew old new).valid = true ∧ x.Lists old new ∧ ∃ pending rollback,
    x.Layout (some (.marker (x.marked .movingNew old new) none)) pending (some rollback) everything moved s ∧
    (∀ entries, pending = some entries → x.Full entries moved) ∧
    (pending = none → ∀ name, (x.new name).isSome = true → moved name = true) ∧
    ∀ name, rollback.lookup (.text name) = x.old name

/-- The root holds the restored entries. -/
def Moved (marker : Option (Node E)) (s : RestoreState E D) : Prop :=
  ∃ rollback, x.Layout marker none (some rollback) everything everything s ∧
    ∀ name, rollback.lookup (.text name) = x.old name

/-- Where the switch can be interrupted once the marker is published. -/
inductive Standing (s : RestoreState E D) : Prop
  | prepared (old new : List EntryName) (twin : Option Nat) : x.Prepared old new twin s → Standing s
  | movingOld (old new : List EntryName) (out : String → Bool) : x.MovingOld old new out s → Standing s
  | movingNew (old new : List EntryName) (moved : String → Bool) : x.MovingNew old new moved s → Standing s
  | activated (old new : List EntryName) : (x.marked .activated old new).valid = true →
      x.Moved (some (.marker (x.marked .activated old new) none)) s → Standing s
  | done : x.Moved none s → Standing s

variable {x} {s t : RestoreState E D} {marker marker' : Option (Node E)}
variable {pending rollback : Option (Directory (Entry E))} {out moved : String → Bool} {old new : List EntryName}

section Distinct

theorem pendingName_orphan (x : Switch E) : orphanRestoreName x.value.pendingName = true := by
  have valid := x.valid
  unfold Marker.valid at valid
  simp only [Bool.and_eq_true, beq_iff_eq, decide_eq_true_eq] at valid
  unfold Marker.pendingName
  rw [valid.1.1.1.1.1.1.2]
  exact orphanRestoreName_pending valid.1.1.1.1.1.1.1.1

theorem rollbackName_kept (x : Switch E) : orphanRestoreName x.value.rollbackName = false :=
  orphanRestoreName_rollback x.value.requestId

theorem rollback_ne_marker (id : String) : EntryName.text (rollbackPrefix ++ id) ≠ activationMarker := by
  intro same
  have found := rollbackOf_eq_some.mpr (Eq.refl (rollbackPrefix ++ id))
  rw [same, activationMarker_names.2] at found
  cases found

theorem orphan_ne {name other : EntryName} (orphan : orphanRestoreName name = true)
    (kept : orphanRestoreName other = false) : name ≠ other := by
  rintro rfl
  rw [orphan] at kept
  cases kept

end Distinct

/-- A state that differs by its marker and by temporary files made later. -/
structure Written (marker : Option (Node E)) (s t : RestoreState E D) : Prop where
  marker : t.root.lookup activationMarker = marker
  texts : ∀ name, .text name ≠ activationMarker → t.root.lookup (.text name) = s.root.lookup (.text name)
  older : ∀ serial < s.serial, t.root.lookup (.temporary serial) = s.root.lookup (.temporary serial)
  newer : ∀ serial node, s.serial ≤ serial → t.root.lookup (.temporary serial) = some node →
    serial < t.serial ∧ node = .entry .temporary
  serial : s.serial ≤ t.serial

theorem Layout.written (layout : x.Layout marker pending rollback out moved s) (written : Written marker' s t) :
    x.Layout marker' pending rollback out moved t where
  marker := written.marker
  pending := (written.texts _ (orphan_ne x.pendingName_orphan activationMarker_names.1)).trans layout.pending
  rollback := (written.texts _ (rollback_ne_marker _)).trans layout.rollback
  rollbacks id differs := (written.texts _ (rollback_ne_marker id)).trans (layout.rollbacks id differs)
  entries name plain := (written.texts name plain.1).trans (layout.entries name plain)
  orphans name node orphan differs found := by
    cases name with
    | text name =>
      have same := written.texts name (orphan_ne orphan activationMarker_names.1)
      exact layout.orphans _ node orphan differs (same.symm.trans found)
    | temporary serial => cases orphan
  temporaries serial node found := by
    by_cases before : serial < s.serial
    · have facts := layout.temporaries serial node ((written.older serial before).symm.trans found)
      exact ⟨Nat.lt_of_lt_of_le facts.1 written.serial, facts.2⟩
    · exact written.newer serial node (Nat.le_of_not_lt before) found

/-- A state in which an abandoned directory was emptied or removed. -/
structure Pruned (name : EntryName) (s t : RestoreState E D) : Prop where
  present : (s.root.lookup name).isSome = true
  gone : t.root.lookup name = none ∨ t.root.lookup name = some (.directory ∅)
  others : ∀ other ≠ name, t.root.lookup other = s.root.lookup other
  serial : t.serial = s.serial

variable {name : EntryName}

variable {pending' : Option (Directory (Entry E))}

theorem Layout.shrunk (layout : x.Layout marker pending rollback out moved s)
    (orphan : orphanRestoreName name = true)
    (pruned : Pruned name s t) (left : t.root.lookup x.value.pendingName = pending'.map .directory)
    (orphans : name ≠ x.value.pendingName → x.abandoned = true) :
    x.Layout marker pending' rollback out moved t := by
  have kept : ∀ other, orphanRestoreName other = false → t.root.lookup other = s.root.lookup other :=
    fun other safe => pruned.others other (orphan_ne orphan safe).symm
  refine ⟨(kept _ activationMarker_names.1).trans layout.marker, left,
    (kept _ x.rollbackName_kept).trans layout.rollback,
    fun id other => ?_, fun text plain => ?_, fun other node found away present => ?_, fun serial node found => ?_⟩
  · exact (kept _ (orphanRestoreName_rollback id)).trans (layout.rollbacks id other)
  · exact (kept _ plain.2.1).trans (layout.entries text plain)
  · by_cases same : other = name
    · rw [same] at present away
      rcases pruned.gone with gone | empty
      · exact absurd (gone.symm.trans present) nofun
      · cases empty.symm.trans present
        exact ⟨orphans away, ∅, rfl, rfl⟩
    · exact layout.orphans other node found away ((pruned.others other same).symm.trans present)
  · rw [pruned.serial]
    exact layout.temporaries serial node ((kept _ rfl).symm.trans found)

theorem Layout.pruned (layout : x.Layout marker pending rollback out moved s)
    (orphan : orphanRestoreName name = true) (differs : name ≠ x.value.pendingName) (pruned : Pruned name s t) :
    x.Layout marker pending rollback out moved t := by
  obtain ⟨before, there⟩ := Option.isSome_iff_exists.mp pruned.present
  exact layout.shrunk orphan pruned ((pruned.others _ differs.symm).trans layout.pending)
    fun _ => (layout.orphans name before orphan differs there).1

theorem Layout.discarded (layout : x.Layout marker pending rollback out moved s)
    (pruned : Pruned x.value.pendingName s t) (left : t.root.lookup x.value.pendingName = pending'.map .directory) :
    x.Layout marker pending' rollback out moved t :=
  layout.shrunk x.pendingName_orphan pruned left fun other => absurd rfl other

theorem Layout.changed {rollback' : Option (Directory (Entry E))} {out' moved' : String → Bool}
    (layout : x.Layout marker pending rollback out moved s) (name : EntryName)
    (kind : name ≠ activationMarker ∧ orphanRestoreName name = false ∧ rollbackOf name = none)
    (same : ∀ other ≠ name, other ≠ x.value.pendingName → other ≠ x.value.rollbackName →
      t.root.lookup other = s.root.lookup other)
    (atPending : t.root.lookup x.value.pendingName = pending'.map .directory)
    (atRollback : t.root.lookup x.value.rollbackName = rollback'.map .directory)
    (entries : ∀ text, Plain text → t.root.lookup (.text text) = (x.rootEntry out' moved' text).map .entry)
    (tidy : Tidy t) : x.Layout marker pending' rollback' out' moved' t where
  marker := (same _ kind.1.symm (orphan_ne x.pendingName_orphan activationMarker_names.1).symm
    (rollback_ne_marker _).symm).trans layout.marker
  pending := atPending
  rollback := atRollback
  rollbacks id differs := by
    refine (same _ ?_ (orphan_ne x.pendingName_orphan (orphanRestoreName_rollback id)).symm ?_).trans
      (layout.rollbacks id differs)
    · rintro rfl
      rw [rollbackOf_eq_some.mpr rfl] at kind
      exact absurd kind.2.2 nofun
    · intro equal
      have found := rollbackOf_eq_some.mpr (Eq.refl (rollbackPrefix ++ id))
      rw [equal] at found
      exact differs (Option.some.inj (found.symm.trans (rollbackOf_eq_some.mpr rfl)))
  entries := entries
  orphans other node orphan away found :=
    layout.orphans other node orphan away
      ((same other (orphan_ne orphan kind.2.1) away (orphan_ne orphan x.rollbackName_kept)).symm.trans found)
  temporaries := tidy

section Journal

theorem written_created (tidy : Tidy s) : Written (s.root.lookup activationMarker) s (createTemporary s) where
  marker := lookup_createTemporary s _
  texts name _ := lookup_createTemporary s name
  older serial before := lookup_insert_ne (by simpa using Nat.ne_of_lt before)
  newer serial node after found := by
    by_cases same : serial = s.serial
    · subst same
      rw [createTemporary, lookup_insert] at found
      exact ⟨Nat.lt_succ_self _, (Option.some.inj found).symm⟩
    · rw [createTemporary, lookup_insert_ne (by simpa using same)] at found
      exact absurd (tidy serial node found).1 (Nat.not_lt.mpr after)
  serial := Nat.le_succ _

theorem written_replaced (tidy : Tidy s) (value : Marker) :
    Written (some (.marker value none)) s (replaceMarker s.serial value (createTemporary s)) where
  marker := lookup_insert _
  texts name differs := by
    show ((_ : Directory (Node E)).insert _ _).lookup _ = _
    rw [lookup_insert_ne differs, lookup_erase_ne (by simp)]
    exact lookup_createTemporary s name
  older serial before := by
    show ((_ : Directory (Node E)).insert _ _).lookup _ = _
    rw [lookup_insert_ne (by simp [activationMarker]), lookup_erase_ne (by simpa using Nat.ne_of_lt before)]
    exact (written_created tidy).older serial before
  newer serial node after found := by
    change ((_ : Directory (Node E)).insert _ _).lookup _ = _ at found
    rw [lookup_insert_ne (by simp [activationMarker])] at found
    by_cases same : serial = s.serial
    · rw [same, lookup_erase] at found
      cases found
    · rw [lookup_erase_ne (by simpa using same)] at found
      exact (written_created tidy).newer serial node after found
  serial := Nat.le_succ _

variable {serial : Nat}

theorem unlinkTemporary_lookup (differs : name ≠ activationMarker) :
    (unlinkTemporary serial s).root.lookup name = (s.root.erase (.temporary serial)).lookup name := by
  unfold unlinkTemporary
  dsimp only
  split
  · split
    · exact lookup_insert_ne differs
    · rfl
  · rfl

theorem unlinkTemporary_serial (serial : Nat) : (unlinkTemporary serial s).serial = s.serial := by
  unfold unlinkTemporary
  dsimp only
  split
  · split <;> rfl
  · rfl

theorem Written.unlinked (written : Written marker s t)
    (atMarker : (unlinkTemporary s.serial t).root.lookup activationMarker = marker') :
    Written marker' s (unlinkTemporary s.serial t) where
  marker := atMarker
  texts name differs := by
    rw [unlinkTemporary_lookup differs, lookup_erase_ne (by simp)]
    exact written.texts name differs
  older serial before := by
    rw [unlinkTemporary_lookup (by simp [activationMarker]), lookup_erase_ne (by simpa using Nat.ne_of_lt before)]
    exact written.older serial before
  newer serial node after found := by
    rw [unlinkTemporary_lookup (by simp [activationMarker])] at found
    rw [unlinkTemporary_serial]
    by_cases same : serial = s.serial
    · rw [same, lookup_erase] at found
      cases found
    · rw [lookup_erase_ne (by simpa using same)] at found
      exact written.newer serial node after found
  serial := (unlinkTemporary_serial s.serial).symm ▸ written.serial

theorem unlinkTemporary_marker
    (single : ∀ value other, s.root.lookup activationMarker ≠ some (.marker value (some other))) :
    (unlinkTemporary serial s).root.lookup activationMarker = s.root.lookup activationMarker := by
  have kept : (s.root.erase (.temporary serial)).lookup activationMarker = s.root.lookup activationMarker :=
    lookup_erase_ne (by simp [activationMarker])
  unfold unlinkTemporary
  dsimp only
  split
  · rename_i value other found
    exact absurd (kept.symm.trans found) (single value other)
  · exact kept

theorem journal_resumes {C P M Q : RestoreState E D → Prop} {value : Marker} {rest : Program (RestoreState E D)}
    (tidy : ∀ s, P s → Tidy s ∧ ∃ recorded, s.root.lookup activationMarker = some (.marker recorded none))
    (start : ∀ s, P s → C s)
    (kept : ∀ s t, P s → Written (s.root.lookup activationMarker) s t → C t)
    (recorded : ∀ s t, P s → Written (some (.marker value none)) s t → M t)
    (next : Resumes C M rest Q) : Resumes C P (atomicJson value true rest) Q := by
  refine atomicJson_resumes start (fun s before => kept s _ before (written_created (tidy s before).1)) ?_
    (fun s before => recorded s _ before (written_replaced (tidy s before).1 value)) ?_ next
  · intro s before
    obtain ⟨clean, value, found⟩ := tidy s before
    have created := written_created clean
    refine kept s _ before (created.unlinked ?_)
    refine (unlinkTemporary_marker fun other twin same => ?_).trans created.marker
    rw [created.marker, found] at same
    cases same
  · intro s before
    have replaced := written_replaced (tidy s before).1 value
    refine next.safe.start _ (recorded s _ before (replaced.unlinked ?_))
    refine (unlinkTemporary_marker fun other twin same => ?_).trans replaced.marker
    rw [replaced.marker] at same
    cases same

end Journal

/-- Each layout of a state is one of a later state, for a switch that differs in
whether restores are abandoned. -/
structure Carries (x y : Switch E) (s t : RestoreState E D) : Prop where
  same : ∃ abandoned, y = { x with abandoned := abandoned }
  layout : ∀ {pending rollback out moved}, ∀ marker, x.Layout marker pending rollback out moved s →
    y.Layout marker pending rollback out moved t
  serial : s.serial ≤ t.serial
  older : ∀ serial < s.serial, t.root.lookup (.temporary serial) = s.root.lookup (.temporary serial)

theorem Carries.written (written : Written (s.root.lookup activationMarker) s t) : Carries x x s t :=
  ⟨⟨_, rfl⟩, fun _ layout => layout.written (layout.marker ▸ written), written.serial, written.older⟩

section Carried

variable {y : Switch E} (carries : Carries x y s t)

include carries

theorem Prepared.carry (standing : x.Prepared old new twin s) : y.Prepared old new twin t := by
  obtain ⟨valid, pending, rollback, layout, rest⟩ := standing
  obtain ⟨⟨_, rfl⟩, carry, _⟩ := carries
  exact ⟨valid, pending, rollback, carry _ layout, rest⟩

theorem MovingOld.carry (standing : x.MovingOld old new out s) : y.MovingOld old new out t := by
  obtain ⟨valid, ⟨texts, names⟩, pending, rollback, layout, full, moved, temporaries⟩ := standing
  obtain ⟨⟨_, rfl⟩, carry, later, older⟩ := carries
  refine ⟨valid, ⟨texts, names⟩, pending, rollback, carry _ layout, full, moved, fun serial member => ?_⟩
  obtain ⟨before, differs⟩ := temporaries serial member
  exact ⟨Nat.lt_of_lt_of_le before later, (older serial before).symm ▸ differs⟩

theorem MovingNew.carry (standing : x.MovingNew old new moved s) : y.MovingNew old new moved t := by
  obtain ⟨valid, ⟨texts, names⟩, pending, rollback, layout, rest⟩ := standing
  obtain ⟨⟨_, rfl⟩, carry, _⟩ := carries
  exact ⟨valid, ⟨texts, names⟩, pending, rollback, carry _ layout, rest⟩

theorem Moved.carry (standing : x.Moved marker s) : y.Moved marker t := by
  obtain ⟨rollback, layout, complete⟩ := standing
  obtain ⟨⟨_, rfl⟩, carry, _⟩ := carries
  exact ⟨rollback, carry _ layout, complete⟩

theorem Standing.carry (standing : x.Standing s) : y.Standing t := by
  obtain ⟨_, rfl⟩ := id carries.same
  cases standing with
  | prepared old new twin standing => exact .prepared old new twin (standing.carry carries)
  | movingOld old new out standing => exact .movingOld old new out (standing.carry carries)
  | movingNew old new moved standing => exact .movingNew old new moved (standing.carry carries)
  | activated old new valid standing => exact .activated old new valid (standing.carry carries)
  | done standing => exact .done (standing.carry carries)

end Carried

section Phases

theorem Prepared.written {old' new' : List EntryName} {twin twin' : Option Nat}
    (standing : x.Prepared old new twin s)
    (valid : (x.marked .prepared old' new').valid = true)
    (written : Written (some (.marker (x.marked .prepared old' new') twin')) s t) :
    x.Prepared old' new' twin' t := by
  obtain ⟨_, pending, rollback, layout, full, small, empty⟩ := standing
  exact ⟨valid, pending, rollback, layout.written written, full, small, empty⟩

theorem Moved.written (standing : x.Moved marker s) (written : Written marker' s t) : x.Moved marker' t := by
  obtain ⟨rollback, layout, complete⟩ := standing
  exact ⟨rollback, layout.written written, complete⟩

theorem valid_phase {phase phase' : RestorePhase} (valid : (x.marked phase old new).valid = true)
    (switches : phase' ≠ .databaseOldRenamed ∧ phase' ≠ .databaseActivated) :
    (x.marked phase' old new).valid = true := by
  unfold Marker.valid at valid ⊢
  simp only [marked, x.sqlite] at valid ⊢
  simp_all

theorem Prepared.begins {rollback : Directory (Entry E)} (standing : x.Prepared old new none s)
    (present : s.root.lookup x.value.rollbackName = some (.directory rollback)) (lists : x.Lists old new)
    (temporaries : ∀ serial, .temporary serial ∈ old → (s.root.lookup (.temporary serial)).isSome = true)
    (written : Written (some (.marker (x.marked .movingOld old new) none)) s t) :
    x.MovingOld old new nothing t := by
  obtain ⟨valid, pending, here, layout, full, _, empty⟩ := standing
  have same := layout.rollback.symm.trans present
  cases here with
  | none => cases same
  | some entries =>
    cases same
    refine ⟨valid_phase valid ⟨nofun, nofun⟩, lists, pending, rollback, layout.written written, full, ?_, ?_⟩
    · intro name
      exact empty rollback rfl _
    · intro serial member
      have found := temporaries serial member
      obtain ⟨node, known⟩ := Option.isSome_iff_exists.mp found
      have before := (layout.temporaries serial node known).1
      refine ⟨Nat.lt_of_lt_of_le before written.serial, ?_⟩
      rw [written.older serial before, found, empty rollback rfl]
      simp

theorem MovingOld.ends (standing : x.MovingOld old new out s) (gone : ∀ name ∈ old, s.root.lookup name = none)
    (written : Written (some (.marker (x.marked .movingNew old new) none)) s t) :
    x.MovingNew old new nothing t := by
  obtain ⟨valid, lists, pending, rollback, layout, full, moved, _⟩ := standing
  have left : ∀ name entry, x.old name = some entry → out name = true := by
    intro name entry known
    have absent := gone (.text name) ((lists.old name).mpr (by simp [known]))
    rw [layout.entries name (x.old_names name entry known).1] at absent
    by_contra stays
    simp [rootEntry, nothing, stays, known] at absent
  have later := layout.written written
  refine ⟨valid_phase valid ⟨nofun, nofun⟩, lists, some pending, rollback, { later with entries := ?_ },
    ?_, nofun, ?_⟩
  · intro name plain
    rw [later.entries name plain]
    cases known : x.old name with
    | none => simp [rootEntry, nothing, everything, known]
    | some entry => simp [rootEntry, nothing, everything, left name entry known]
  · rintro _ ⟨rfl⟩
    exact full
  · intro name
    rw [moved]
    cases known : x.old name with
    | none => simp
    | some entry => rw [if_pos (left name entry known)]

theorem MovingNew.ends (standing : x.MovingNew old new moved s)
    (complete : ∀ name, (x.new name).isSome = true → moved name = true)
    (removed : s.root.lookup x.value.pendingName = none)
    (written : Written (some (.marker (x.marked .activated old new) none)) s t) :
    x.Moved (some (.marker (x.marked .activated old new) none)) t := by
  obtain ⟨valid, lists, pending, rollback, layout, _, _, moves⟩ := standing
  have later := layout.written written
  refine ⟨rollback, { later with pending := ?_, entries := ?_ }, moves⟩
  · have same := layout.pending.symm.trans removed
    cases pending with
    | none => exact later.pending
    | some _ => cases same
  · intro name plain
    rw [later.entries name plain]
    cases known : x.new name with
    | none => simp [rootEntry, everything, known]
    | some entry => simp [rootEntry, everything, known, complete name (by simp [known])]

end Phases

section Moves

variable {name : EntryName} {entries : Directory (Entry E)}

theorem directory?_eq_some : s.directory? name = some entries ↔ s.root.lookup name = some (.directory entries) := by
  unfold directory?
  split <;> simp_all

theorem listed_kind (listed : (∃ text, name = .text text ∧ Plain text) ∨ ∃ serial, name = .temporary serial) :
    (name ≠ activationMarker ∧ orphanRestoreName name = false ∧ rollbackOf name = none) ∧
      name ≠ x.value.pendingName ∧ name ≠ x.value.rollbackName := by
  have kind : name ≠ activationMarker ∧ orphanRestoreName name = false ∧ rollbackOf name = none := by
    rcases listed with ⟨text, rfl, plain⟩ | ⟨serial, rfl⟩
    · exact plain
    · exact ⟨by simp [activationMarker], rfl, rfl⟩
  refine ⟨kind, (orphan_ne x.pendingName_orphan kind.2.1).symm, ?_⟩
  rintro rfl
  cases kind.2.2.symm.trans (rollbackOf_eq_some.mpr rfl)

variable {entry : Entry E}

theorem moveOld_here (present : s.directory? x.value.rollbackName = some entries)
    (atRoot : s.root.lookup name = some (.entry entry)) (absent : entries.lookup name = none) :
    moveOld x.value.rollbackName name s = .ok (s.withRoot
      ((s.root.erase name).insert x.value.rollbackName (.directory (entries.insert name entry)))) := by
  unfold moveOld
  rw [present]
  dsimp only
  rw [atRoot, absent]

theorem moveOld_done (present : s.directory? x.value.rollbackName = some entries)
    (atRoot : s.root.lookup name = none)
    (moved : entries.lookup name = some entry) : moveOld x.value.rollbackName name s = .ok s := by
  unfold moveOld
  rw [present]
  dsimp only
  rw [atRoot, moved]

theorem Lists.listed (lists : x.Lists old new) (member : name ∈ old) :
    (∃ text, name = .text text ∧ Plain text) ∨ ∃ serial, name = .temporary serial := by
  cases name with
  | text text =>
    obtain ⟨entry, known⟩ := Option.isSome_iff_exists.mp ((lists.old text).mp member)
    exact .inl ⟨text, rfl, (x.old_names text entry known).1⟩
  | temporary serial => exact .inr ⟨serial, rfl⟩

variable {rollback : Directory (Entry E)}

theorem MovingOld.placed (standing : x.MovingOld old new out s) (member : name ∈ old)
    (present : s.directory? x.value.rollbackName = some rollback) :
    (∃ entry, s.root.lookup name = some (.entry entry) ∧ rollback.lookup name = none) ∨
      s.root.lookup name = none ∧ ∃ entry, rollback.lookup name = some entry := by
  obtain ⟨_, lists, pending, here, layout, _, moved, temporaries⟩ := standing
  cases (directory?_eq_some.mp present).symm.trans layout.rollback
  cases name with
  | text text =>
    obtain ⟨entry, known⟩ := Option.isSome_iff_exists.mp ((lists.old text).mp member)
    have atRoot := layout.entries text (x.old_names text entry known).1
    have atRollback := moved text
    cases stays : out text with
    | true => exact .inr ⟨by simp [atRoot, rootEntry, nothing, stays], entry, by simp [atRollback, stays, known]⟩
    | false => exact .inl ⟨entry, by simp [atRoot, rootEntry, nothing, stays, known], by simp [atRollback, stays]⟩
  | temporary serial =>
    have differs := (temporaries serial member).2
    cases atRollback : rollback.lookup (.temporary serial) with
    | none =>
      rw [atRollback] at differs
      obtain ⟨node, atRoot⟩ := Option.isSome_iff_exists.mp (Bool.ne_false_iff.mp differs)
      cases (layout.temporaries serial node atRoot).2
      exact .inl ⟨.temporary, atRoot, rfl⟩
    | some entry =>
      rw [atRollback] at differs
      exact .inr ⟨Option.not_isSome_iff_eq_none.mp differs, entry, rfl⟩

theorem MovingOld.moves (standing : x.MovingOld old new out s) (member : name ∈ old)
    (present : s.directory? x.value.rollbackName = some rollback)
    (atRoot : s.root.lookup name = some (.entry entry))
    (absent : rollback.lookup name = none) :
    x.MovingOld old new (fun text => decide (.text text = name) || out text) (s.withRoot
      ((s.root.erase name).insert x.value.rollbackName (.directory (rollback.insert name entry)))) := by
  obtain ⟨valid, lists, pending, here, layout, full, moved, temporaries⟩ := standing
  cases (directory?_eq_some.mp present).symm.trans layout.rollback
  obtain ⟨kind, notPending, notRollback⟩ := x.listed_kind (lists.listed member)
  generalize built : s.withRoot
    ((s.root.erase name).insert x.value.rollbackName (.directory (rollback.insert name entry))) = t
  have others : ∀ other ≠ name, other ≠ x.value.rollbackName → t.root.lookup other = s.root.lookup other := by
    subst built
    intro other differs away
    exact (lookup_insert_ne away).trans (lookup_erase_ne differs)
  have gone : t.root.lookup name = none := by
    subst built
    exact (lookup_insert_ne notRollback).trans (lookup_erase _ _)
  have arrived : t.root.lookup x.value.rollbackName = some (.directory (rollback.insert name entry)) := by
    subst built
    exact lookup_insert _
  have serial_eq : t.serial = s.serial := by
    subst built
    rfl
  have temporary_ne : ∀ serial, EntryName.temporary serial ≠ x.value.rollbackName := fun _ => nofun
  refine ⟨valid, lists, pending, rollback.insert name entry,
    layout.changed _ kind (fun other differs _ => others other differs)
    ?_ arrived ?_ ?_, full, ?_, ?_⟩
  · exact (others _ notPending.symm (orphan_ne x.pendingName_orphan x.rollbackName_kept)).trans layout.pending
  · intro text plain
    by_cases same : EntryName.text text = name
    · rw [same, gone]
      simp [rootEntry, nothing, same]
    · have away := (x.listed_kind (.inl ⟨text, rfl, plain⟩)).2.2
      refine (others _ same away).trans ((layout.entries text plain).trans ?_)
      simp [rootEntry, same]
  · intro serial node found
    rw [serial_eq]
    by_cases same : EntryName.temporary serial = name
    · rw [same] at found
      exact absurd (gone.symm.trans found) nofun
    · exact layout.temporaries serial node ((others _ same (temporary_ne serial)).symm.trans found)
  · intro text
    by_cases same : EntryName.text text = name
    · subst same
      obtain ⟨other, known⟩ := Option.isSome_iff_exists.mp ((lists.old text).mp member)
      have held := (layout.entries text (x.old_names text other known).1).symm.trans atRoot
      have kept := (moved text).symm.trans absent
      rw [lookup_insert]
      cases stays : out text with
      | true => simp [stays, known] at kept
      | false =>
        rw [rootEntry, nothing, if_neg Bool.false_ne_true, stays, if_neg Bool.false_ne_true, known] at held
        cases held
        simp [known]
    · rw [lookup_insert_ne same, moved]
      simp [same]
  · intro serial listed
    obtain ⟨before, differs⟩ := temporaries serial listed
    refine ⟨serial_eq.symm ▸ before, ?_⟩
    by_cases same : EntryName.temporary serial = name
    · rw [same, gone, lookup_insert]
      simp
    · rw [others _ same (temporary_ne serial), lookup_insert_ne same]
      exact differs

theorem MovingOld.moveOld (standing : x.MovingOld old new out s) (member : name ∈ old) :
    ∃ t, moveOld x.value.rollbackName name s = .ok t ∧ (∃ out, x.MovingOld old new out t) ∧
      t.root.lookup name = none ∧ ∀ other ∈ old, s.root.lookup other = none → t.root.lookup other = none := by
  obtain ⟨_, lists, _, rollback, layout, _⟩ := id standing
  have present := directory?_eq_some.mpr layout.rollback
  rcases standing.placed member present with ⟨entry, atRoot, absent⟩ | ⟨atRoot, entry, moved⟩
  · refine ⟨_, moveOld_here present atRoot absent, ⟨_, standing.moves member present atRoot absent⟩, ?_, ?_⟩
    · exact (lookup_insert_ne (x.listed_kind (lists.listed member)).2.2).trans (lookup_erase _ _)
    · intro other listed gone
      refine (lookup_insert_ne (x.listed_kind (lists.listed listed)).2.2).trans ?_
      by_cases same : other = name
      · exact same ▸ lookup_erase _ _
      · exact (lookup_erase_ne same).trans gone
  · exact ⟨s, moveOld_done present atRoot moved, ⟨out, standing⟩, atRoot, fun _ _ => id⟩

theorem moveNew_here (atRoot : s.root.lookup name = none)
    (present : s.directory? x.value.pendingName = some entries)
    (held : entries.lookup name = some entry) :
    moveNew x.value.pendingName name s = .ok (s.withRoot
      ((s.root.insert name (.entry entry)).insert x.value.pendingName (.directory (entries.erase name)))) := by
  unfold moveNew
  rw [atRoot, present]
  dsimp only
  rw [held]

theorem moveNew_done {node : Node E} (atRoot : s.root.lookup name = some node)
    (absent : ∀ entries, s.directory? x.value.pendingName = some entries → entries.lookup name = none) :
    moveNew x.value.pendingName name s = .ok s := by
  unfold moveNew
  rw [atRoot]
  cases present : s.directory? x.value.pendingName with
  | none => rfl
  | some entries =>
    dsimp only
    rw [absent entries present, if_neg (by simp)]

theorem MovingNew.moves {name : String} (standing : x.MovingNew old new moved s) (known : x.new name = some entry)
    (present : s.directory? x.value.pendingName = some entries) :
    x.MovingNew old new (fun text => decide (text = name) || moved text) (s.withRoot
      ((s.root.insert (.text name) (.entry entry)).insert x.value.pendingName
        (.directory (entries.erase (.text name))))) := by
  obtain ⟨valid, lists, pending, rollback, layout, full, _, kept⟩ := standing
  have plain := (x.new_names name entry known).1
  obtain ⟨kind, notPending, notRollback⟩ := x.listed_kind (.inl ⟨name, rfl, plain⟩)
  have here := layout.pending.symm.trans (directory?_eq_some.mp present)
  cases pending with
  | none => cases here
  | some held =>
  cases here
  generalize built : s.withRoot ((s.root.insert (.text name) (.entry entry)).insert x.value.pendingName
    (.directory (entries.erase (.text name)))) = t
  have others : ∀ other ≠ .text name, other ≠ x.value.pendingName → t.root.lookup other = s.root.lookup other := by
    subst built
    intro other differs away
    exact (lookup_insert_ne away).trans (lookup_insert_ne differs)
  have arrived : t.root.lookup (.text name) = some (.entry entry) := by
    subst built
    exact (lookup_insert_ne notPending).trans (lookup_insert _)
  have left : t.root.lookup x.value.pendingName = some (.directory (entries.erase (.text name))) := by
    subst built
    exact lookup_insert _
  have serial_eq : t.serial = s.serial := by
    subst built
    rfl
  refine ⟨valid, lists, some (entries.erase (.text name)), rollback,
    layout.changed _ kind (fun other differs away _ => others other differs away) left ?_ ?_ ?_, ?_, nofun, kept⟩
  · exact (others _ notRollback.symm (orphan_ne x.pendingName_orphan x.rollbackName_kept).symm).trans
      layout.rollback
  · intro text plain
    by_cases same : text = name
    · rw [same, arrived]
      simp [rootEntry, known]
    · have away := (x.listed_kind (.inl ⟨text, rfl, plain⟩)).2.1
      refine (others _ (by simpa using same) away).trans ((layout.entries text plain).trans ?_)
      simp [rootEntry, same]
  · intro serial node found
    rw [serial_eq]
    exact layout.temporaries serial node ((others (.temporary serial) nofun nofun).symm.trans found)
  · rintro _ ⟨rfl⟩ other
    cases other with
    | text text =>
      by_cases same : text = name
      · rw [same, lookup_erase]
        simp
      · rw [lookup_erase_ne (by simpa using same), full entries rfl]
        simp [same]
    | temporary serial => exact (lookup_erase_ne (by simp)).trans (full entries rfl (.temporary serial))

theorem MovingNew.moveNew (standing : x.MovingNew old new moved s) (member : name ∈ new) :
    ∃ t, moveNew x.value.pendingName name s = .ok t ∧ ∃ moved', x.MovingNew old new moved' t ∧
      (∀ text, moved text = true → moved' text = true) ∧ ∀ text, name = .text text → moved' text = true := by
  obtain ⟨_, lists, pending, rollback, layout, full, missing, _⟩ := id standing
  obtain ⟨text, rfl, some⟩ := (lists.new name).mp member
  obtain ⟨entry, known⟩ := Option.isSome_iff_exists.mp some
  have atRoot := layout.entries text (x.new_names text entry known).1
  cases stays : moved text with
  | true =>
    rw [rootEntry, if_pos stays, known] at atRoot
    refine ⟨s, moveNew_done atRoot fun entries present => ?_, moved, standing, fun _ => id, ?_⟩
    · have here := layout.pending.symm.trans (directory?_eq_some.mp present)
      cases pending with
      | none => cases here
      | some held =>
        cases here
        rw [full entries rfl]
        simp [stays]
    · rintro _ ⟨rfl⟩
      exact stays
  | false =>
    cases pending with
    | none => simp [missing rfl text some] at stays
    | some entries =>
      have present := directory?_eq_some.mpr layout.pending
      have held := full entries rfl (.text text)
      rw [rootEntry, stays, if_neg Bool.false_ne_true, everything, if_pos rfl] at atRoot
      simp only [stays, known] at held
      refine ⟨_, moveNew_here atRoot present held, _, standing.moves known present, ?_, ?_⟩
      · intro other already
        simp [already]
      · rintro _ ⟨rfl⟩
        simp

end Moves

section Switching

variable {host : RestoreHost E} {Q : RestoreState E D → Prop} {rest : Marker → Program (RestoreState E D)}

variable {name : EntryName}

theorem pruned_erase (present : (s.root.lookup name).isSome = true) : Pruned name s (eraseEntry name s) :=
  ⟨present, .inl (lookup_erase _ _), fun _ differs => lookup_erase_ne differs, rfl⟩

theorem pruned_clear (present : (s.root.lookup name).isSome = true) : Pruned name s (clearDirectory name s) :=
  ⟨present, .inr (lookup_insert _), fun _ differs => lookup_insert_ne differs, rfl⟩

theorem MovingNew.recorded (standing : x.MovingNew old new moved s) :
    Tidy s ∧ s.root.lookup activationMarker = some (.marker (x.marked .movingNew old new) none) := by
  obtain ⟨_, _, _, _, layout, _⟩ := standing
  exact ⟨layout.temporaries, layout.marker⟩

theorem MovingOld.recorded (standing : x.MovingOld old new out s) :
    Tidy s ∧ s.root.lookup activationMarker = some (.marker (x.marked .movingOld old new) none) := by
  obtain ⟨_, _, _, _, layout, _⟩ := standing
  exact ⟨layout.temporaries, layout.marker⟩

/-- Each new entry was moved, and the prepared directory is there no more. -/
def Emptied (old new : List EntryName) (s : RestoreState E D) : Prop :=
  ∃ moved, x.MovingNew old new moved s ∧ (∀ name, (x.new name).isSome = true → moved name = true) ∧
    s.root.lookup x.value.pendingName = none

theorem MovingNew.removes (standing : x.MovingNew old new moved s)
    (complete : ∀ name, (x.new name).isSome = true → moved name = true) {entries : Directory (Entry E)}
    (present : s.directory? x.value.pendingName = some entries) :
    ∃ t, removeDirectory x.value.pendingName s = .ok t ∧ x.Emptied old new t := by
  obtain ⟨valid, lists, pending, rollback, layout, full, _, kept⟩ := standing
  have here := layout.pending.symm.trans (directory?_eq_some.mp present)
  cases pending with
  | none => cases here
  | some held =>
  cases here
  have empty : entries.keys = [] := by
    rw [eq_nil_iff_forall_not_mem]
    intro name member
    have known := AList.lookup_isSome.mpr (AList.mem_keys.mpr member)
    rw [full entries rfl] at known
    cases name with
    | text text =>
      dsimp only at known
      cases stays : moved text with
      | true => simp [stays] at known
      | false =>
        rw [stays, if_neg Bool.false_ne_true] at known
        rw [complete text known] at stays
        cases stays
    | temporary serial => cases known
  have gone : (eraseEntry x.value.pendingName s).root.lookup x.value.pendingName = none := lookup_erase _ _
  have there : (s.root.lookup x.value.pendingName).isSome = true := by rw [layout.pending]; rfl
  refine ⟨eraseEntry x.value.pendingName s, ?_, moved, ?_, complete, gone⟩
  · unfold removeDirectory
    rw [present]
    dsimp only
    rw [empty]
    rfl
  · exact ⟨valid, lists, none, rollback, layout.discarded (pruned_erase there) (gone : _ = Option.map _ none),
      nofun,
      fun _ => complete, kept⟩

theorem removePending_resumes {rest : Program (RestoreState E D)}
    (next : Resumes x.Standing (x.Emptied old new) rest Q) : Resumes x.Standing
      (fun s => ∃ moved, x.MovingNew old new moved s ∧ ∀ name, (x.new name).isSome = true → moved name = true)
      (removePending (x.marked .movingNew old new) rest) Q := by
  refine .readAt fun s ⟨moved, standing, complete⟩ => ?_
  have here : ∀ t, t = s → x.Standing t := fun _ same => same ▸ .movingNew old new moved standing
  split
  · rename_i present
    obtain ⟨entries, present⟩ := Option.isSome_iff_exists.mp present
    refine .call here (.step here (fun t same => ?_) next)
    exact same ▸ standing.removes complete present
  · rename_i absent
    refine next.weaken (fun t same => ?_) fun _ => id
    subst same
    refine ⟨moved, standing, complete, ?_⟩
    obtain ⟨_, _, pending, _, layout, _⟩ := standing
    cases pending with
    | none => exact layout.pending
    | some entries =>
      have found : t.directory? x.value.pendingName = some entries := directory?_eq_some.mpr layout.pending
      refine absurd ?_ absent
      show (t.directory? x.value.pendingName).isSome = true
      rw [found]
      rfl

theorem moveNewEntries_resumes
    (next : Resumes x.Standing (x.Moved (some (.marker (x.marked .activated old new) none)))
      (rest (x.marked .activated old new)) Q) :
    Resumes x.Standing (fun s => ∃ moved, x.MovingNew old new moved s)
      (moveNewEntries (x.marked .movingNew old new) rest) Q := by
  unfold moveNewEntries
  rw [if_pos (show (x.marked .movingNew old new).phase = .movingNew from rfl)]
  let past (names : List EntryName) (s : RestoreState E D) : Prop :=
    ∃ moved, x.MovingNew old new moved s ∧ ∀ text, .text text ∈ names → moved text = true
  have turns : Resumes x.Standing (past []) (each (moveNew x.value.pendingName) new) (past new) := by
    refine .each (I := past) new (fun _ _ _ s ⟨moved, standing, _⟩ => .movingNew old new moved standing) ?_
    rintro names name later split s ⟨moved, standing, already⟩
    have member : name ∈ new := split ▸ mem_append_right _ mem_cons_self
    obtain ⟨t, ok, moved', after, more, here⟩ := standing.moveNew member
    refine ⟨t, ok, moved', after, fun text listed => ?_⟩
    rcases List.mem_append.mp listed with before | now
    · exact more text (already text before)
    · exact here text (List.mem_singleton.mp now).symm
  refine (turns.weaken (fun s ⟨moved, standing⟩ => ⟨moved, standing, nofun⟩) fun s => ?_).seq
    (removePending_resumes (.call ?_ (journal_resumes ?_ ?_ ?_ ?_ next)))
  · rintro ⟨moved, standing, complete⟩
    obtain ⟨_, lists, _⟩ := id standing
    exact ⟨moved, standing, fun name some => complete name ((lists.new _).mpr ⟨name, rfl, some⟩)⟩
  · rintro s ⟨moved, standing, _⟩
    exact .movingNew old new moved standing
  · rintro s ⟨moved, standing, _⟩
    exact ⟨standing.recorded.1, _, standing.recorded.2⟩
  · rintro s ⟨moved, standing, _⟩
    exact .movingNew old new moved standing
  · rintro s t ⟨moved, standing, _⟩ written
    exact .movingNew old new moved (standing.carry (.written written))
  · rintro s t ⟨moved, standing, complete, removed⟩ written
    exact standing.ends complete removed written

theorem moveOldEntries_resumes
    (next : Resumes x.Standing (fun s => ∃ moved,
      x.MovingNew old new moved s) (rest (x.marked .movingNew old new)) Q) :
    Resumes x.Standing (fun s => ∃ out, x.MovingOld old new out s)
      (moveOldEntries (x.marked .movingOld old new) rest) Q := by
  unfold moveOldEntries
  rw [if_pos (show (x.marked .movingOld old new).phase = .movingOld from rfl)]
  let past (names : List EntryName) (s : RestoreState E D) : Prop :=
    (∃ out, x.MovingOld old new out s) ∧ ∀ name ∈ names, s.root.lookup name = none
  have turns : Resumes x.Standing (past []) (each (moveOld x.value.rollbackName) old) (past old) := by
    refine .each (I := past) old (fun _ _ _ s ⟨⟨out, standing⟩, _⟩ => .movingOld old new out standing) ?_
    rintro names name later split s ⟨⟨out, standing⟩, already⟩
    have member : name ∈ old := split ▸ mem_append_right _ mem_cons_self
    obtain ⟨t, ok, after, gone, others⟩ := standing.moveOld member
    refine ⟨t, ok, after, fun other listed => ?_⟩
    rcases List.mem_append.mp listed with before | now
    · exact others other (split ▸ mem_append_left _ before) (already other before)
    · exact List.mem_singleton.mp now ▸ gone
  have start : ∀ s, past old s → x.Standing s := fun s ⟨⟨out, standing⟩, _⟩ => .movingOld old new out standing
  refine (turns.weaken (fun s before => ⟨before, nofun⟩) fun _ => id).seq
    (.call start (.call start (journal_resumes ?_ start ?_ ?_ next)))
  · rintro s ⟨⟨out, standing⟩, _⟩
    exact ⟨standing.recorded.1, _, standing.recorded.2⟩
  · rintro s t ⟨⟨out, standing⟩, _⟩ written
    exact .movingOld old new out (standing.carry (.written written))
  · rintro s t ⟨⟨out, standing⟩, gone⟩ written
    exact ⟨nothing, standing.ends gone written⟩

theorem eraseMarker_written (tidy : Tidy s) : Written none s (eraseEntry activationMarker s) where
  marker := lookup_erase _ _
  texts _ differs := lookup_erase_ne differs
  older _ _ := lookup_erase_ne (by simp [activationMarker])
  newer serial node after found :=
    absurd (tidy serial node ((lookup_erase_ne (by simp [activationMarker])).symm.trans found)).1
      (Nat.not_lt.mpr after)
  serial := Nat.le_refl _

/-- The end of the switch: the marker is removed. -/
def lastSteps (value : Marker) : Program (RestoreState E D) :=
  if value.phase = .activated then .step (write (eraseEntry activationMarker)) (call .done) else .done

theorem lastSteps_resumes (valid : (x.marked .activated old new).valid = true) :
    Resumes x.Standing (x.Moved (some (.marker (x.marked .activated old new) none)))
      (lastSteps (x.marked .activated old new)) (x.Moved (D := D) none) := by
  unfold lastSteps
  rw [if_pos (show (x.marked .activated old new).phase = .activated from rfl)]
  have finished : ∀ s : RestoreState E D, x.Moved none s → x.Standing s := fun _ => .done
  refine .write (fun _ => .activated old new valid) (M := x.Moved none) ?_
    (.call finished (.done finished fun _ => id))
  rintro s ⟨rollback, layout, complete⟩
  exact Moved.written ⟨rollback, layout, complete⟩ (eraseMarker_written layout.temporaries)

theorem switchEntries_resumes (valid : (x.marked .prepared old new).valid = true) :
    Resumes x.Standing (fun s => ∃ out, x.MovingOld old new out s)
      (switchEntries (x.marked .movingOld old new)) (x.Moved (D := D) none) ∧
    Resumes x.Standing (fun s => ∃ moved, x.MovingNew old new moved s)
      (switchEntries (x.marked .movingNew old new)) (x.Moved (D := D) none) ∧
    Resumes x.Standing (x.Moved (some (.marker (x.marked .activated old new) none)))
      (switchEntries (x.marked .activated old new)) (x.Moved (D := D) none) := by
  have activated : (x.marked .activated old new).valid = true := valid_phase valid ⟨nofun, nofun⟩
  have last := lastSteps_resumes (D := D) activated
  have second := moveNewEntries_resumes last
  refine ⟨?_, second, last⟩
  unfold switchEntries
  dsimp only
  rw [if_neg (show ¬((x.marked .movingOld old new).phase = .prepared ∨ _) from by simp [marked])]
  exact moveOldEntries_resumes second

end Switching

section Listing

/-- A name that a listing returns. -/
def isListed (excluded : List EntryName) (preserve : Bool) (name : EntryName) : Bool :=
  decide (name ∉ excluded) && (if preserve then rollbackOf name else none).isNone

theorem checkEntries_ok {α : Type} {isDirectory : α → Bool} {directory : Directory α} {excluded : List EntryName}
    {preserve : Bool} (names : List EntryName)
    (fine : ∀ name ∈ names, name ∈ excluded ∨
      (∃ id, preserve = true ∧ rollbackOf name = some id ∧ isIdentifier id = true ∧
        (directory.lookup name).any isDirectory = true) ∨
      ((if preserve then rollbackOf name else none) = none ∧ entryName name = true)) :
    checkEntries isDirectory directory excluded preserve names =
      .ok (names.filter (isListed excluded preserve)) := by
  induction names with
  | nil => rfl
  | cons name rest ih =>
    have later := ih fun other member => fine other (mem_cons_of_mem _ member)
    unfold checkEntries
    by_cases skipped : name ∈ excluded
    · rw [if_pos skipped, later, filter_cons_of_neg (by simp [isListed, skipped])]
    · rw [if_neg skipped]
      rcases (fine name mem_cons_self).resolve_left skipped with ⟨id, rfl, found, identifier,
        directory⟩ | ⟨plain, legal⟩
      · rw [if_pos rfl, found]
        dsimp only
        rw [identifier, directory, later, filter_cons_of_neg (by simp [isListed, found])]
        rfl
      · rw [plain]
        dsimp only
        rw [legal, later, filter_cons_of_pos (by simp [isListed, skipped, plain])]
        rfl

theorem safeEntries_ok {α : Type} (isDirectory : α → Bool) (directory : Directory α) (excluded : List EntryName)
    (preserve : Bool) (small : directory.keys.length ≤ maxTopLevelEntries)
    (fine : ∀ name node, directory.lookup name = some node → name ∈ excluded ∨
      (∃ id, preserve = true ∧ rollbackOf name = some id ∧ isIdentifier id = true ∧ isDirectory node = true) ∨
      ((if preserve then rollbackOf name else none) = none ∧ entryName name = true)) :
    ∃ names, safeEntries isDirectory directory excluded preserve = .ok names ∧ names.length ≤ maxTopLevelEntries ∧
      names.Nodup ∧ ∀ name, name ∈ names ↔ (directory.lookup name).isSome = true ∧ name ∉ excluded ∧
        (if preserve then rollbackOf name else none) = none := by
  have sorted : (sortNames directory.keys).Perm directory.keys := mergeSort_perm _ _
  have count : (sortNames directory.keys).length ≤ maxTopLevelEntries := sorted.length_eq.symm ▸ small
  have member : ∀ name, name ∈ sortNames directory.keys ↔ (directory.lookup name).isSome = true := fun name =>
    sorted.mem_iff.trans (AList.mem_keys.symm.trans AList.lookup_isSome.symm)
  refine ⟨(sortNames directory.keys).filter (isListed excluded preserve), ?_,
    Nat.le_trans (length_filter_le _ _) count, (sorted.nodup_iff.mpr directory.keys_nodup).filter _, ?_⟩
  · unfold safeEntries
    dsimp only
    rw [if_neg (Nat.not_lt.mpr count)]
    refine checkEntries_ok _ fun name listed => ?_
    obtain ⟨node, found⟩ := Option.isSome_iff_exists.mp ((member name).mp listed)
    rw [found]
    exact fine name node found
  · intro name
    rw [mem_filter, member]
    simp [isListed]

/-- Only the prepared directory is left of what looks like an abandoned restore. -/
def Cleared (s : RestoreState E D) : Prop :=
  ∀ name, orphanRestoreName name = true → name ≠ x.value.pendingName → s.root.lookup name = none

variable {pending : Directory (Entry E)}

theorem Layout.names (layout : x.Layout marker (some pending) rollback nothing nothing s) (cleared : x.Cleared s)
    {node : Node E} (found : s.root.lookup name = some node) :
    name ∈ [activationMarker, x.value.pendingName, x.value.rollbackName] ∨
      (∃ id, rollbackOf name = some id ∧ isIdentifier id = true ∧ node.isDirectory = true) ∨
      rollbackOf name = none ∧ entryName name = true ∧ ∀ text, name = .text text → (x.old text).isSome = true := by
  by_cases own : name ∈ [activationMarker, x.value.pendingName, x.value.rollbackName]
  · exact .inl own
  · simp only [mem_cons, not_mem_nil, or_false, not_or] at own
    cases name with
    | temporary serial => exact .inr (.inr ⟨rfl, rfl, nofun⟩)
    | text text =>
      cases kind : rollbackOf (.text text) with
      | some id =>
        have same := rollbackOf_eq_some.mp kind
        subst same
        rw [layout.rollbacks id fun same => own.2.2 (same ▸ rfl)] at found
        obtain ⟨entries, known, rfl⟩ := Option.map_eq_some_iff.mp found
        exact .inr (.inl ⟨id, rfl, (x.rollbacks_names id entries known).1, rfl⟩)
      | none =>
        have kept : orphanRestoreName (.text text) = false := by
          by_contra orphan
          rw [cleared _ ((Bool.not_eq_false _).mp orphan) own.2.1] at found
          cases found
        rw [layout.entries text ⟨own.1, kept, kind⟩] at found
        obtain ⟨entry, known, rfl⟩ := Option.map_eq_some_iff.mp found
        refine .inr (.inr ⟨rfl, (x.old_names text entry known).2, ?_⟩)
        rintro _ ⟨rfl⟩
        exact Option.isSome_iff_exists.mpr ⟨entry, known⟩

theorem Layout.listOld (layout : x.Layout marker (some pending) rollback nothing nothing s) (cleared : x.Cleared s)
    (small : s.root.keys.length ≤ maxTopLevelEntries) :
    ∃ old, safeEntries Node.isDirectory s.root [activationMarker, x.value.pendingName,
      x.value.rollbackName] true = .ok old ∧
      old.length ≤ maxTopLevelEntries ∧ old.Nodup ∧ old.all entryName = true ∧
      (∀ name, .text name ∈ old ↔ (x.old name).isSome = true) ∧
      ∀ serial, .temporary serial ∈ old → (s.root.lookup (.temporary serial)).isSome = true := by
  obtain ⟨old, listed, count, distinct, member⟩ := safeEntries_ok _ _ _ true small fun name node found =>
    (layout.names cleared found).imp_right (.imp (fun ⟨id, known, legal, directory⟩ =>
      ⟨id, rfl, known, legal, directory⟩)
      fun ⟨plain, legal, _⟩ => ⟨plain, legal⟩)
  have kinds : ∀ name ∈ old, entryName name = true ∧ ∀ text, name = .text text → (x.old text).isSome = true := by
    intro name here
    obtain ⟨some, own, plain⟩ := (member name).mp here
    obtain ⟨node, found⟩ := Option.isSome_iff_exists.mp some
    rcases (layout.names cleared found).resolve_left own with ⟨id, known, _⟩ | ⟨_, facts⟩
    · exact absurd (known.symm.trans plain) nofun
    · exact facts
  refine ⟨old, listed, count, distinct, List.all_eq_true.mpr fun name here => (kinds name here).1, fun name => ?_,
    fun serial here => ((member _).mp here).1⟩
  refine ⟨fun here => (kinds _ here).2 name rfl, fun known => (member _).mpr ?_⟩
  obtain ⟨entry, known⟩ := Option.isSome_iff_exists.mp known
  have plain := (x.old_names name entry known).1
  obtain ⟨kind, notPending, notRollback⟩ := x.listed_kind (.inl ⟨name, rfl, plain⟩)
  refine ⟨?_, by simp [kind.1, notPending, notRollback], kind.2.2⟩
  rw [layout.entries name plain]
  simp [rootEntry, nothing, known]

theorem Full.listNew (full : x.Full pending nothing) (small : pending.keys.length ≤ maxTopLevelEntries) :
    ∃ new, safeEntries (fun _ => false) pending [] false = .ok new ∧ new.length ≤ maxTopLevelEntries ∧ new.Nodup ∧
      new.all entryName = true ∧ ∀ name, name ∈ new ↔ ∃ text, name = .text text ∧ (x.new text).isSome = true := by
  have kinds : ∀ name entry, pending.lookup name = some entry → ∃ text, name = .text text ∧
      x.new text = some entry := by
    intro name entry found
    rw [full] at found
    cases name with
    | text text => exact ⟨text, rfl, found⟩
    | temporary serial => cases found
  obtain ⟨new, listed, count, distinct, member⟩ := safeEntries_ok (fun _ => false) pending [] false small
    fun name entry found => by
      obtain ⟨text, rfl, known⟩ := kinds name entry found
      exact .inr (.inr ⟨rfl, (x.new_names text entry known).2⟩)
  have texts : ∀ name, name ∈ new ↔ ∃ text, name = .text text ∧ (x.new text).isSome = true := by
    intro name
    rw [member]
    constructor
    · rintro ⟨some, _⟩
      obtain ⟨entry, found⟩ := Option.isSome_iff_exists.mp some
      obtain ⟨text, same, known⟩ := kinds name entry found
      exact ⟨text, same, Option.isSome_iff_exists.mpr ⟨entry, known⟩⟩
    · rintro ⟨text, rfl, some⟩
      refine ⟨?_, not_mem_nil, rfl⟩
      rw [full]
      exact some
  refine ⟨new, listed, count, distinct, List.all_eq_true.mpr fun name here => ?_, texts⟩
  obtain ⟨text, rfl, some⟩ := (texts name).mp here
  obtain ⟨entry, known⟩ := Option.isSome_iff_exists.mp some
  exact (x.new_names text entry known).2

theorem valid_lists {old' new' : List EntryName} (valid : (x.marked .prepared old new).valid = true)
    (counts : old'.length ≤ maxTopLevelEntries ∧ new'.length ≤ maxTopLevelEntries)
    (distinct : old'.Nodup ∧ new'.Nodup)
    (legal : old'.all entryName = true ∧ new'.all entryName = true) :
    (x.marked .prepared old' new').valid = true := by
  unfold Marker.valid at valid ⊢
  simp only [marked, x.sqlite] at valid ⊢
  simp_all

end Listing

section Cleanup

variable {host : RestoreHost E} {C P Q : RestoreState E D → Prop}

/-- A directory that can be removed without looking at a staging database. -/
def Discardable (name : EntryName) (s : RestoreState E D) : Prop :=
  ∃ entries, s.root.lookup name = some (.directory entries) ∧ entries.lookup postgresRestoreMetadata = none

theorem removeOrphans_resumes (names : List EntryName) (distinct : names.Nodup) (start : ∀ s, P s → C s)
    (closed : ∀ name ∈ names, ∀ s t, P s → Pruned name s t → P t) :
    Resumes C (fun s => P s ∧ ∀ name ∈ names, Discardable name s) (removeOrphans host names)
      (fun s => P s ∧ ∀ name ∈ names, s.root.lookup name = none) := by
  induction names generalizing P with
  | nil => exact .done (fun s before => start s before.1) fun s before => ⟨before.1, nofun⟩
  | cons name rest ih =>
    rw [nodup_cons] at distinct
    have differs : ∀ other ∈ rest, other ≠ name := fun other member same => distinct.1 (same ▸ member)
    have here := closed name mem_cons_self
    have later := ih (P := fun s => P s ∧ s.root.lookup name = none) distinct.2 (fun s before => start s before.1)
      fun other member s t before pruned => ⟨closed other (mem_cons_of_mem _ member) s t before.1 pruned,
        (pruned.others name (differs other member).symm).trans before.2⟩
    have kept : ∀ s t : RestoreState E D, Pruned name s t → (∀ other ∈ rest, Discardable other s) →
        ∀ other ∈ rest, Discardable other t := by
      intro s t pruned before other member
      obtain ⟨entries, found, clean⟩ := before other member
      exact ⟨entries, (pruned.others other (differs other member)).trans found, clean⟩
    have others : Resumes C (fun s => (P s ∧ s.root.lookup name = none) ∧ ∀ other ∈ rest, Discardable other s)
        (call (removeOrphans host rest)) (fun s => P s ∧ ∀ other ∈ name :: rest, s.root.lookup other = none) := by
      refine .call (fun s before => start s before.1.1) (later.weaken (fun _ => id) ?_)
      rintro s ⟨⟨after, gone⟩, others⟩
      refine ⟨after, fun other member => ?_⟩
      rcases List.mem_cons.mp member with rfl | more
      · exact gone
      · exact others other more
    refine .step (M := fun s => P s ∧ ∀ other ∈ name :: rest, Discardable other s) (fun s before =>
      start s before.1) ?_
      (.write (M := fun s => P s ∧ (s.root.lookup name).isSome = true ∧ ∀ other ∈ rest, Discardable other s)
        (fun s before => start s before.1) ?_ (.write (fun s before => start s before.1) ?_ others))
    · rintro s ⟨before, clean⟩
      obtain ⟨entries, found, none⟩ := clean name mem_cons_self
      refine ⟨s, ?_, before, clean⟩
      unfold dropStage
      rw [directory?_eq_some.mpr found]
      dsimp only
      rw [none]
    · rintro s ⟨before, clean⟩
      obtain ⟨entries, found, _⟩ := clean name mem_cons_self
      have pruned := pruned_clear (Option.isSome_iff_exists.mpr ⟨_, found⟩)
      refine ⟨here s _ before pruned, ?_, kept s _ pruned fun other member =>
        clean other (mem_cons_of_mem _ member)⟩
      exact Option.isSome_iff_exists.mpr ⟨_, lookup_insert _⟩
    · rintro s ⟨before, present, clean⟩
      have pruned := pruned_erase present
      exact ⟨⟨here s _ before pruned, lookup_erase _ _⟩, kept s _ pruned clean⟩

theorem cleanup_resumes {rest : Program (RestoreState E D)} (preserve : List EntryName) (start : ∀ s, P s → C s)
    (closed : ∀ name, orphanRestoreName name = true → name ∉ preserve → ∀ s t, P s → Pruned name s t → P t)
    (clean : ∀ s, P s → ∀ name node, orphanRestoreName name = true → name ∉ preserve →
      s.root.lookup name = some node →
      ∃ entries, node = .directory entries ∧ entries.lookup postgresRestoreMetadata = none)
    (next : Resumes C (fun s => P s ∧ ∀ name, orphanRestoreName name = true → name ∉ preserve →
      s.root.lookup name = none) rest Q) : Resumes C P (cleanupOrphanRestores host preserve rest) Q := by
  refine .readAt fun s before => ?_
  have sorted : (sortNames s.root.keys).Perm s.root.keys := mergeSort_perm _ _
  have member : ∀ name, name ∈ (sortNames s.root.keys).filter (fun name =>
      !preserve.contains name && orphanRestoreName name) ↔
      (s.root.lookup name).isSome = true ∧ orphanRestoreName name = true ∧ name ∉ preserve := by
    intro name
    rw [mem_filter, sorted.mem_iff, ← AList.mem_keys, ← lookup_isSome]
    simp [and_comm]
  generalize found : (sortNames s.root.keys).filter (fun name => !preserve.contains name &&
    orphanRestoreName name) = names
  rw [found] at member
  have distinct : names.Nodup := found ▸ (sorted.nodup_iff.mpr s.root.keys_nodup).filter _
  let unseen (t : RestoreState E D) : Prop := P t ∧ ∀ name, orphanRestoreName name = true → name ∉ preserve →
    name ∉ names → t.root.lookup name = none
  have removed : Resumes C _ (removeOrphans host names) _ := removeOrphans_resumes (P := unseen) names distinct
    (fun t here => start t here.1) fun name listed t u here pruned => by
      obtain ⟨_, orphan, away⟩ := (member name).mp listed
      refine ⟨closed name orphan away t u here.1 pruned, fun other kind apart unlisted => ?_⟩
      rw [pruned.others other fun same => unlisted (same ▸ listed)]
      exact here.2 other kind apart unlisted
  refine (removed.weaken ?_ ?_).seq next
  · rintro _ rfl
    refine ⟨⟨before, fun name orphan away unlisted => ?_⟩, fun name listed => ?_⟩
    · by_contra present
      exact unlisted ((member name).mpr ⟨Option.isSome_iff_ne_none.mpr present, orphan, away⟩)
    · obtain ⟨some, orphan, away⟩ := (member name).mp listed
      obtain ⟨node, present⟩ := Option.isSome_iff_exists.mp some
      obtain ⟨entries, rfl, none⟩ := clean _ before name node orphan away present
      exact ⟨entries, present, none⟩
  · rintro t ⟨⟨after, absent⟩, gone⟩
    refine ⟨after, fun name orphan away => ?_⟩
    by_cases listed : name ∈ names
    · exact gone name listed
    · exact absent name orphan away listed

end Cleanup

section Opening

variable {host : RestoreHost E} {C P M Q : RestoreState E D → Prop} {value : Marker}

theorem dropMetadata_sqlite (sqlite : value.databaseEngine = .sqlite) (s : RestoreState E D) :
    dropMetadata host value s = .ok s := by
  unfold dropMetadata
  rw [sqlite]
  split
  · rfl
  · split
    · rfl
    · simp

variable {name : EntryName}

theorem makeDirectory_present {node : Node E} (present : s.root.lookup name = some node) :
    makeDirectory name s = s := by
  unfold makeDirectory
  rw [present]
  rfl

/-- The checks before the switch, up to the opened rollback directory. -/
def openDirectories (host : RestoreHost E) (value : Marker) (rest : Program (RestoreState E D)) :
    Program (RestoreState E D) :=
  .step (check (pendingOpens value) failed) <|
  .step (dropMetadata host value) <|
  .step (write (makeDirectory value.rollbackName)) <|
  call <|
  .step (check (fun s => (s.directory? value.rollbackName).isSome = true) failed) rest

theorem openDirectories_resumes {rest : Program (RestoreState E D)} (sqlite : value.databaseEngine = .sqlite)
    (start : ∀ s, P s → C s) (opens : ∀ s, P s → pendingOpens value s)
    (made : ∀ s, P s → M (makeDirectory value.rollbackName s))
    (present : ∀ s, M s → ∃ entries, s.root.lookup value.rollbackName = some (.directory entries))
    (next : Resumes C M rest Q) : Resumes C P (openDirectories host value rest) Q := by
  have later : ∀ s, M s → C s := next.safe.start
  refine .check start opens (.step start (fun s before => ⟨s, dropMetadata_sqlite sqlite s, before⟩)
    (.write start made (.call later (.check later (fun s after => ?_) next))))
  obtain ⟨entries, found⟩ := present s after
  rw [directory?_eq_some.mpr found]
  rfl

theorem pendingOpens_some {entries : Directory (Entry E)}
    (found : s.root.lookup value.pendingName = some (.directory entries)) :
    pendingOpens value s := by
  unfold pendingOpens
  rw [found]
  rfl

theorem pendingOpens_moved (layout : s.root.lookup value.pendingName = pending.map .directory)
    (moved : value.phase = .movingNew ∨ value.phase = .activated) : pendingOpens value s := by
  unfold pendingOpens
  rw [layout]
  cases pending with
  | none => exact moved
  | some entries => rfl

variable {twin : Option Nat}

theorem Prepared.makesDirectory (standing : x.Prepared old new twin s) :
    x.Prepared old new twin (makeDirectory x.value.rollbackName s) ∧
      ∃ entries, (makeDirectory x.value.rollbackName s).root.lookup x.value.rollbackName =
        some (.directory entries) := by
  obtain ⟨valid, pending, rollback, layout, full, small, empty⟩ := id standing
  cases rollback with
  | some entries =>
    rw [makeDirectory_present layout.rollback]
    exact ⟨standing, entries, layout.rollback⟩
  | none =>
    have absent : s.root.lookup x.value.rollbackName = none := layout.rollback
    have made : makeDirectory x.value.rollbackName s =
        s.withRoot (s.root.insert x.value.rollbackName (.directory ∅)) := by
      unfold makeDirectory
      rw [absent]
      rfl
    have others : ∀ other ≠ x.value.rollbackName,
        (s.root.insert x.value.rollbackName (.directory ∅)).lookup other = s.root.lookup other :=
      fun other differs => lookup_insert_ne differs
    rw [made]
    refine ⟨⟨valid, pending, some ∅,
      layout.changed (.temporary 0) (by simp [activationMarker, orphanRestoreName, rollbackOf])
      (fun other _ _ => others other) ?_ (lookup_insert _) ?_ ?_, full, small, ?_⟩, ∅, lookup_insert _⟩
    · exact (others _ (orphan_ne x.pendingName_orphan x.rollbackName_kept)).trans layout.pending
    · intro name plain
      exact (others _ (x.listed_kind (.inl ⟨name, rfl, plain⟩)).2.2).trans (layout.entries name plain)
    · intro serial node found
      exact layout.temporaries serial node ((others (.temporary serial) fun same => by cases same).symm.trans found)
    · rintro _ ⟨rfl⟩ name
      rfl

theorem roomy_pruned (roomy : Roomy x.value s) (orphan : orphanRestoreName name = true)
    (differs : name ≠ x.value.pendingName) (pruned : Pruned name s t) : Roomy x.value t := by
  obtain ⟨names, small, rollback, all⟩ := roomy
  refine ⟨names, small, rollback, fun other present kind => all other ?_ kind⟩
  rw [← pruned.others other fun same => differs (same ▸ kind (same ▸ orphan))]
  exact present

theorem roomy_makesDirectory (roomy : Roomy x.value s) : Roomy x.value (makeDirectory x.value.rollbackName s) := by
  obtain ⟨names, small, rollback, all⟩ := roomy
  refine ⟨names, small, rollback, fun other present kind => ?_⟩
  by_cases same : other = x.value.rollbackName
  · exact same ▸ rollback
  · refine all other ?_ kind
    unfold makeDirectory at present
    split at present
    · exact present
    · rwa [RestoreState.withRoot, lookup_insert_ne same] at present

theorem roomy_small (roomy : Roomy x.value s) (cleared : x.Cleared s) :
    s.root.keys.length ≤ maxTopLevelEntries := by
  obtain ⟨names, small, _, all⟩ := roomy
  refine Nat.le_trans (s.root.keys_nodup.length_le_of_subset fun name member => ?_) small
  have present := AList.lookup_isSome.mpr (AList.mem_keys.mpr member)
  refine all name present fun orphan => ?_
  by_contra differs
  rw [cleared name orphan differs] at present
  cases present

end Opening

section Activation

variable {host : RestoreHost E}

/-- Wherever a start with a recorded marker is interrupted: no abandoned restore
is left when the marker is gone. -/
def Interrupted (x : Switch E) (s : RestoreState E D) : Prop :=
  x.Standing s ∧ (s.root.lookup activationMarker = none → x.cleaned.Moved none s)

/-- A prepared directory that can be listed. -/
structure Listable (x : Switch E) (old new : List EntryName) (s : RestoreState E D) : Prop where
  prepared : x.Prepared old new none s
  made : ∃ entries, s.root.lookup x.value.rollbackName = some (.directory entries)
  cleared : x.Cleared s
  roomy : Roomy x.value s

/-- A prepared directory whose lists were recorded. -/
structure Reviewed (x : Switch E) (old new : List EntryName) (s : RestoreState E D) : Prop where
  prepared : x.Prepared old new none s
  made : ∃ entries, s.root.lookup x.value.rollbackName = some (.directory entries)
  lists : x.Lists old new
  temporaries : ∀ serial, .temporary serial ∈ old → (s.root.lookup (.temporary serial)).isSome = true

theorem Prepared.recorded (standing : x.Prepared old new none s) :
    Tidy s ∧ s.root.lookup activationMarker = some (.marker (x.marked .prepared old new) none) := by
  obtain ⟨_, _, _, layout, _⟩ := standing
  exact ⟨layout.temporaries, layout.marker⟩

theorem Prepared.valid (standing : x.Prepared old new none s) : (x.marked .prepared old new).valid = true :=
  standing.1

theorem Reviewed.resumes (valid : (x.marked .prepared old new).valid = true) :
    Resumes x.Standing (x.Reviewed old new) (switchEntries (x.marked .prepared old new))
    (x.Moved (D := D) none) := by
  have moves := (switchEntries_resumes (D := D) valid).1
  have same : switchEntries (E := E) (D := D) (x.marked .prepared old new) =
      atomicJson (x.marked .movingOld old new) true (switchEntries (x.marked .movingOld old new)) := by
    unfold switchEntries
    rfl
  rw [same]
  refine journal_resumes (fun s reviewed => ⟨reviewed.prepared.recorded.1, _, reviewed.prepared.recorded.2⟩)
    (fun s reviewed => .prepared old new none reviewed.prepared) (fun s t reviewed written => ?_)
    (fun s t reviewed written => ?_) moves
  · exact .prepared old new none (reviewed.prepared.written reviewed.prepared.valid
      (reviewed.prepared.recorded.2 ▸ written))
  · obtain ⟨entries, present⟩ := reviewed.made
    exact ⟨nothing, reviewed.prepared.begins present reviewed.lists reviewed.temporaries written⟩

theorem Listable.resumes : Resumes x.Standing (x.Listable old new)
    (listEntries (x.marked .prepared old new) fun value =>
      if value.databaseEngine = .postgresql ∧
        value.phase.unswitched then activatePostgresDatabase host value switchEntries
      else switchEntries value) (x.Moved (D := D) none) := by
  unfold listEntries
  rw [if_pos (show (x.marked .prepared old new).phase.unswitched = true from rfl)]
  refine .readAt fun s listable => ?_
  obtain ⟨valid, pending, rollback, layout, full, small, _⟩ := id listable.prepared
  obtain ⟨old', listedOld, countOld, distinctOld, legalOld, texts, temporaries⟩ :=
    layout.listOld listable.cleared (roomy_small listable.roomy listable.cleared)
  obtain ⟨new', listedNew, countNew, distinctNew, legalNew, member⟩ := full.listNew small
  have required : (requiredEntries (x.marked .prepared old new).databaseEngine).all new'.contains = true := by
    rw [all_eq_true]
    intro name here
    rw [contains_iff_mem, member]
    exact x.required name (x.sqlite ▸ here)
  have pendingThere : s.directory? x.value.pendingName = some pending := directory?_eq_some.mpr layout.pending
  have valid' := valid_lists valid ⟨countOld, countNew⟩ ⟨distinctOld, distinctNew⟩ ⟨legalOld, legalNew⟩
  have sqlite : ¬((x.marked .prepared old new).databaseEngine = .postgresql ∧
      (x.marked .prepared old new).phase.unswitched = true) := by simp [marked, x.sqlite]
  change safeEntries Node.isDirectory s.root [activationMarker, (x.marked .prepared old new).pendingName,
    (x.marked .prepared old new).rollbackName] true = _ at listedOld
  change s.directory? (x.marked .prepared old new).pendingName = _ at pendingThere
  rw [listedOld, pendingThere]
  dsimp only
  rw [listedNew]
  dsimp only
  rw [if_pos required]
  show Resumes _ _ (atomicJson (x.marked .prepared old' new') true
    (if _ then _ else switchEntries (x.marked .prepared old' new'))) _
  rw [if_neg sqlite]
  have recorded := listable.prepared.recorded
  refine journal_resumes ?_ ?_ ?_ ?_ (Reviewed.resumes valid')
  · rintro _ rfl
    exact ⟨recorded.1, _, recorded.2⟩
  · rintro _ rfl
    exact .prepared old new none listable.prepared
  · rintro _ t rfl written
    exact .prepared old new none (listable.prepared.written valid (recorded.2 ▸ written))
  · rintro _ t rfl written
    refine ⟨listable.prepared.written valid' written, ?_, ⟨texts, member⟩, fun serial here => ?_⟩
    · obtain ⟨entries, present⟩ := listable.made
      exact ⟨entries, (written.texts _ (rollback_ne_marker _)).trans present⟩
    · obtain ⟨node, found⟩ := Option.isSome_iff_exists.mp (temporaries serial here)
      rw [written.older serial (recorded.1 serial node found).1]
      exact temporaries serial here

theorem Unpublished.pruned (standing : x.Unpublished s) (orphan : orphanRestoreName name = true)
    (pruned : Pruned name s t) : x.Unpublished t := by
  obtain ⟨pending, layout, clean⟩ := standing
  by_cases own : name = x.value.pendingName
  · subst own
    rcases pruned.gone with gone | empty
    · exact ⟨none, layout.discarded pruned gone, nofun⟩
    · refine ⟨some ∅, layout.discarded pruned empty, ?_⟩
      rintro _ ⟨rfl⟩
      rfl
  · exact ⟨pending, layout.pruned orphan own pruned, clean⟩

theorem Layout.cleaned (layout : x.Layout marker pending rollback out moved s) (cleared : x.Cleared s) :
    x.cleaned.Layout marker pending rollback out moved s where
  marker := layout.marker
  pending := layout.pending
  rollback := layout.rollback
  rollbacks := layout.rollbacks
  entries := layout.entries
  orphans name _ orphan differs found := absurd ((cleared name orphan differs).symm.trans found) nofun
  temporaries := layout.temporaries

theorem Layout.uncleaned (layout : x.cleaned.Layout marker pending rollback out moved s) :
    x.Layout marker pending rollback out moved s where
  marker := layout.marker
  pending := layout.pending
  rollback := layout.rollback
  rollbacks := layout.rollbacks
  entries := layout.entries
  orphans name node orphan differs found := absurd (layout.orphans name node orphan differs found).1 nofun
  temporaries := layout.temporaries

theorem Layout.cleared (layout : x.cleaned.Layout marker pending rollback out moved s) : x.Cleared s := by
  intro name orphan differs
  cases found : s.root.lookup name with
  | none => rfl
  | some _ => exact absurd (layout.orphans name _ orphan differs found).1 nofun

theorem Carries.pruned (orphan : orphanRestoreName name = true) (differs : name ≠ x.value.pendingName)
    (pruned : Pruned name s t) : Carries x x s t :=
  ⟨⟨_, rfl⟩, fun _ layout => layout.pruned orphan differs pruned, Nat.le_of_eq pruned.serial.symm,
    fun _ _ => pruned.others _ (orphan_ne orphan rfl).symm⟩

theorem Carries.cleaned (cleared : x.Cleared s) : Carries x x.cleaned s s :=
  ⟨⟨_, rfl⟩, fun _ layout => layout.cleaned cleared, le_rfl, fun _ _ => rfl⟩

theorem Carries.uncleaned : Carries x.cleaned x s s :=
  ⟨⟨x.abandoned, rfl⟩, fun _ => Layout.uncleaned, le_rfl, fun _ _ => rfl⟩

/-- The layout in any phase: where the old and the new entries are, and what the
marker says of them. -/
structure View (x : Switch E) (marker : Option (Node E)) (pending rollback : Option (Directory (Entry E)))
    (out moved : String → Bool) (s : RestoreState E D) : Prop where
  layout : x.Layout marker pending rollback out moved s
  done : marker = none → x.Moved none s
  prepared : ∀ value twin, marker = some (.marker value twin) → value.phase = .prepared → out = nothing ∧
    moved = nothing
  apart : ∀ name, moved name = true → out name = true
  old : ∀ name entry, x.old name = some entry → out name = true →
    ∃ entries, rollback = some entries ∧ entries.lookup (.text name) = some entry
  new : ∀ name entry, x.new name = some entry → moved name = false →
    ∃ entries, pending = some entries ∧ entries.lookup (.text name) = some entry

theorem Moved.view (standing : x.Moved marker s)
    (phase : ∀ value twin, marker = some (.marker value twin) → value.phase ≠ .prepared) :
    ∃ rollback, x.View marker none rollback everything everything s := by
  obtain ⟨rollback, layout, kept⟩ := id standing
  exact ⟨rollback, layout, fun none => none ▸ standing, fun value twin recorded same =>
    absurd same (phase value twin recorded),
    fun _ _ => rfl, fun name entry known _ => ⟨rollback, rfl, by rw [kept, known]⟩, fun _ _ _ => nofun⟩

theorem Standing.view (standing : x.Standing s) :
    ∃ marker pending rollback out moved, x.View marker pending rollback out moved s := by
  cases standing with
  | prepared old new twin standing =>
    obtain ⟨_, pending, _, layout, full, _⟩ := standing
    exact ⟨_, _, _, _, _, layout, nofun, fun _ _ _ _ => ⟨rfl, rfl⟩, fun _ => nofun, fun _ _ _ => nofun,
      fun name entry known _ => ⟨pending, rfl, (full _).trans known⟩⟩
  | movingOld old new out standing =>
    obtain ⟨_, _, pending, rollback, layout, full, kept, _⟩ := standing
    refine ⟨_, _, _, _, _, layout, nofun, ?_, fun _ => nofun,
      fun name entry known gone => ⟨rollback, rfl, by rw [kept, if_pos gone, known]⟩,
      fun name entry known _ => ⟨pending, rfl, (full _).trans known⟩⟩
    rintro _ _ ⟨⟩ ⟨⟩
  | movingNew old new moved standing =>
    obtain ⟨_, _, pending, rollback, layout, full, missing, kept⟩ := standing
    refine ⟨_, _, _, _, _, layout, nofun, ?_, fun _ _ => rfl,
      fun name entry known _ => ⟨rollback, rfl, by rw [kept, known]⟩, fun name entry known waits => ?_⟩
    · rintro _ _ ⟨⟩ ⟨⟩
    · cases pending with
      | none => simp [missing rfl name (Option.isSome_iff_exists.mpr ⟨entry, known⟩)] at waits
      | some entries =>
        refine ⟨entries, rfl, (full entries rfl _).trans ?_⟩
        simp [waits, known]
  | activated old new _ standing =>
    obtain ⟨_, view⟩ := standing.view (by rintro _ _ ⟨⟩ ⟨⟩)
    exact ⟨_, _, _, _, _, view⟩
  | done standing =>
    obtain ⟨_, view⟩ := standing.view nofun
    exact ⟨_, _, _, _, _, view⟩

theorem Standing.finished (standing : x.Standing s) (unmarked : s.root.lookup activationMarker = none) :
    x.Moved none s := by
  obtain ⟨_, _, _, _, _, view⟩ := standing.view
  exact view.done (view.layout.marker.symm.trans unmarked)

theorem Standing.interrupted (standing : x.cleaned.Standing s) : x.Interrupted s :=
  ⟨standing.carry .uncleaned, standing.finished⟩

variable {value : Marker}

theorem readMarker_ok (valid : value.valid = true)
    (bytes : 1 < host.markerBytes value ∧ host.markerBytes value ≤ maxMarkerBytes)
    (recorded : s.root.lookup activationMarker = some (.marker value none)) :
    readMarker host s = .ok (some value) := by
  unfold readMarker
  rw [recorded]
  exact if_pos ⟨bytes.1, bytes.2, valid⟩

theorem readMarker_none (recorded : s.root.lookup activationMarker = none) : readMarker host s = .ok none := by
  unfold readMarker
  rw [recorded]

variable {P : RestoreState E D → Prop} {phase : RestorePhase}

theorem activation_resumes {M : RestoreState E D → Prop} (start : ∀ s, P s → x.Standing s)
    (valid : (x.marked phase old new).valid = true)
    (bytes : 1 < host.markerBytes (x.marked phase old new) ∧ host.markerBytes (x.marked phase old new) ≤
      maxMarkerBytes)
    (layout : ∀ s, P s → ∃ pending rollback out moved,
      x.Layout (some (.marker (x.marked phase old new) none)) pending rollback out moved s)
    (pruned : ∀ name, orphanRestoreName name = true → name ≠ x.value.pendingName → ∀ s t, P s →
      Pruned name s t → P t)
    (opens : ∀ s, P s → pendingOpens (x.marked phase old new) s)
    (made : ∀ s, P s → x.Cleared s → M (makeDirectory x.value.rollbackName s))
    (present : ∀ s, M s → ∃ entries, s.root.lookup x.value.rollbackName = some (.directory entries))
    (next : Resumes x.cleaned.Standing M (listEntries (x.marked phase old new) fun value =>
      if value.databaseEngine = .postgresql ∧ value.phase.unswitched then
        activatePostgresDatabase host value switchEntries
      else switchEntries value) (x.cleaned.Moved none)) :
    Resumes x.Interrupted P (activatePendingRestore host) (x.cleaned.Moved none) := by
  have recorded : ∀ s, P s → s.root.lookup activationMarker = some (.marker (x.marked phase old new) none) := by
    intro s before
    obtain ⟨_, _, _, _, layout⟩ := layout s before
    exact layout.marker
  have here : ∀ s, P s → x.Interrupted s :=
    fun s before => ⟨start s before, fun none => absurd ((recorded s before).symm.trans none) nofun⟩
  have sqlite : (x.marked phase old new).databaseEngine = .sqlite := x.sqlite
  refine .readAt fun s before => ?_
  rw [readMarker_ok valid bytes (recorded s before)]
  dsimp only
  refine Resumes.weaken (P := P) (cleanup_resumes [x.value.pendingName] here ?_ ?_
    (openDirectories_resumes (M := M) sqlite (fun s before => here s before.1) (fun s before =>
      opens s before.1) ?_ present
      (next.mono fun _ => Standing.interrupted))) (fun t same => same ▸ before) fun _ => id
  · intro name orphan away
    exact pruned name orphan (ne_of_not_mem_cons away)
  · intro s before name node orphan away found
    obtain ⟨_, _, _, _, layout⟩ := layout s before
    exact (layout.orphans name node orphan (ne_of_not_mem_cons away) found).2
  · rintro s ⟨before, cleared⟩
    exact made s before fun name orphan differs => cleared name orphan (by simpa using differs)

theorem listEntries_switched {rest : Marker → Program (RestoreState E D)}
    (switched : value.phase.unswitched = false) :
    listEntries value rest = rest value := by
  unfold listEntries
  rw [switched, if_neg Bool.false_ne_true]

theorem switched_rest :
    (if (x.marked phase old new).databaseEngine = .postgresql ∧
      (x.marked phase old new).phase.unswitched = true then
      activatePostgresDatabase host (x.marked phase old new) switchEntries
      else switchEntries (E := E) (D := D) (x.marked phase old new)) = switchEntries (x.marked phase old new) :=
  if_neg (by simp [marked, x.sqlite])

theorem unmarked_resumes (unmarked : ∀ s, P s → s.root.lookup activationMarker = none)
    (pruned : ∀ name, orphanRestoreName name = true → ∀ s t, P s → Pruned name s t → P t)
    (clean : ∀ s, P s → ∀ name node, orphanRestoreName name = true → s.root.lookup name = some node →
      ∃ entries, node = .directory entries ∧ entries.lookup postgresRestoreMetadata = none) :
    Resumes P P (activatePendingRestore host) P := by
  refine .readAt fun s before => ?_
  rw [readMarker_none (unmarked s before)]
  dsimp only
  exact Resumes.weaken (P := P) (cleanup_resumes [] (fun _ => id) (fun name orphan _ => pruned name orphan)
    (fun s here name node orphan _ => clean s here name node orphan)
    (.done (fun s here => here.1) fun s here => here.1)) (fun t same => same ▸ before) fun _ => id

theorem Unpublished.resumes :
    Resumes x.Unpublished x.Unpublished (activatePendingRestore (D := D) host) x.Unpublished := by
  refine unmarked_resumes ?_ (fun name orphan s t standing => standing.pruned orphan) ?_
  · rintro s ⟨_, layout, _⟩
    exact layout.marker
  · rintro s ⟨pending, layout, clean⟩ name node orphan found
    by_cases own : name = x.value.pendingName
    · subst own
      obtain ⟨entries, held, rfl⟩ := Option.map_eq_some_iff.mp (layout.pending.symm.trans found)
      exact ⟨entries, rfl, clean entries held⟩
    · exact (layout.orphans name node orphan own found).2

theorem Moved.resumes : Resumes (x.Moved none) (x.Moved none) (activatePendingRestore (D := D) host)
    (x.Moved none) := by
  refine unmarked_resumes ?_ (fun name orphan s t standing pruned => ?_) ?_
  · rintro s ⟨_, layout, _⟩
    exact layout.marker
  · refine standing.carry (.pruned orphan (fun own => ?_) pruned)
    obtain ⟨_, layout, _⟩ := standing
    have present := pruned.present
    rw [own, layout.pending] at present
    cases present
  · rintro s ⟨_, layout, _⟩ name node orphan found
    refine (layout.orphans name node orphan (fun own => ?_) found).2
    rw [own, layout.pending] at found
    cases found

theorem Prepared.resumes (valid : (x.marked .prepared old new).valid = true)
    (bytes : 1 < host.markerBytes (x.marked .prepared old new) ∧ host.markerBytes (x.marked .prepared old new) ≤
      maxMarkerBytes) :
    Resumes x.Interrupted (fun s => x.Prepared old new none s ∧ Roomy x.value s) (activatePendingRestore host)
      (x.cleaned.Moved (D := D) none) := by
  refine activation_resumes (M := x.cleaned.Listable old new) (fun s before =>
    .prepared old new none before.1) valid bytes
    ?_ ?_ ?_ ?_ ?_ Listable.resumes
  · rintro s ⟨⟨_, _, _, layout, _⟩, _⟩
    exact ⟨_, _, _, _, layout⟩
  · rintro name orphan differs s t ⟨standing, roomy⟩ pruned
    exact ⟨standing.carry (.pruned orphan differs pruned), roomy_pruned roomy orphan differs pruned⟩
  · rintro s ⟨⟨_, _, _, layout, _⟩, _⟩
    exact pendingOpens_some layout.pending
  · rintro s ⟨standing, roomy⟩ cleared
    obtain ⟨made, there⟩ := (standing.carry (.cleaned cleared)).makesDirectory
    refine ⟨made, there, fun name orphan differs => ?_, roomy_makesDirectory roomy⟩
    obtain ⟨_, _, _, layout, _⟩ := made
    exact layout.cleared name orphan differs
  · exact fun s listable => listable.made

theorem moving_resumes {P : Switch E → RestoreState E D → Prop} (switched : phase.unswitched = false)
    (start : ∀ s, P x s → x.Standing s) (valid : (x.marked phase old new).valid = true)
    (bytes : 1 < host.markerBytes (x.marked phase old new) ∧ host.markerBytes (x.marked phase old new) ≤
      maxMarkerBytes)
    (layout : ∀ s, P x s → ∃ pending rollback out moved,
      x.Layout (some (.marker (x.marked phase old new) none)) pending (some rollback) out moved s)
    (carry : ∀ x y s t, Carries x y s t → P x s → P y t)
    (opens : ∀ s, P x s → pendingOpens (x.marked phase old new) s)
    (moves : Resumes x.cleaned.Standing (P x.cleaned) (switchEntries (x.marked phase old new))
      (x.cleaned.Moved none)) :
    Resumes x.Interrupted (P x) (activatePendingRestore host) (x.cleaned.Moved (D := D) none) := by
  refine activation_resumes (M := P x.cleaned) start valid bytes ?_
    (fun _ orphan differs s t before pruned => carry x x s t (.pruned orphan differs pruned) before) opens ?_ ?_ ?_
  · intro s before
    obtain ⟨_, rollback, _, _, layout⟩ := layout s before
    exact ⟨_, _, _, _, layout⟩
  · intro s before cleared
    obtain ⟨_, _, _, _, layout⟩ := layout s before
    exact (makeDirectory_present layout.rollback).symm ▸ carry _ _ s s (.cleaned cleared) before
  · intro s before
    obtain ⟨_, rollback, _, _, layout⟩ := layout s (carry _ _ s s .uncleaned before)
    exact ⟨rollback, layout.rollback⟩
  · rw [listEntries_switched switched, switched_rest]
    exact moves

theorem Standing.resumes (standing : x.Standing s) (marked : s.root.lookup activationMarker ≠ none)
    (fit : Fit host s) :
    Resumes x.Interrupted (· = s) (activatePendingRestore host) (x.cleaned.Moved none) := by
  cases standing with
  | done standing =>
    obtain ⟨_, layout, _⟩ := standing
    exact absurd layout.marker marked
  | prepared old new twin standing =>
    obtain ⟨valid, _, _, layout, _⟩ := id standing
    obtain ⟨rfl, more, less, roomy⟩ := fit _ _ layout.marker
    exact (Prepared.resumes valid ⟨more, less⟩).weaken (fun t same => same ▸ ⟨standing, roomy rfl⟩) fun _ => id
  | movingOld old new out standing =>
    obtain ⟨valid, _, _, _, layout, _⟩ := id standing
    obtain ⟨_, more, less, _⟩ := fit _ _ layout.marker
    have prepared : (x.marked .prepared old new).valid = true := valid_phase valid ⟨nofun, nofun⟩
    refine (moving_resumes (P := fun x s => ∃ out, x.MovingOld old new out s) rfl ?_ valid ⟨more, less⟩ ?_ ?_ ?_
      (x.cleaned.switchEntries_resumes prepared).1).weaken (fun t same => same ▸ ⟨out, standing⟩) fun _ => id
    · exact fun s ⟨out, standing⟩ => .movingOld old new out standing
    · exact fun s ⟨out, _, _, _, _, layout, _⟩ => ⟨_, _, _, _, layout⟩
    · exact fun _ _ _ _ carries ⟨out, standing⟩ => ⟨out, standing.carry carries⟩
    · exact fun s ⟨out, _, _, _, _, layout, _⟩ => pendingOpens_some layout.pending
  | movingNew old new moved standing =>
    obtain ⟨valid, _, _, _, layout, _⟩ := id standing
    obtain ⟨_, more, less, _⟩ := fit _ _ layout.marker
    have prepared : (x.marked .prepared old new).valid = true := valid_phase valid ⟨nofun, nofun⟩
    refine (moving_resumes (P := fun x s => ∃ moved, x.MovingNew old new moved s) rfl ?_ valid ⟨more, less⟩ ?_ ?_ ?_
      (x.cleaned.switchEntries_resumes prepared).2.1).weaken (fun t same => same ▸ ⟨moved, standing⟩) fun _ => id
    · exact fun s ⟨moved, standing⟩ => .movingNew old new moved standing
    · exact fun s ⟨moved, _, _, _, _, layout, _⟩ => ⟨_, _, _, _, layout⟩
    · exact fun _ _ _ _ carries ⟨moved, standing⟩ => ⟨moved, standing.carry carries⟩
    · exact fun s ⟨moved, _, _, _, _, layout, _⟩ => pendingOpens_moved layout.pending (.inl rfl)
  | activated old new valid standing =>
    obtain ⟨_, layout, _⟩ := id standing
    obtain ⟨_, more, less, _⟩ := fit _ _ layout.marker
    have prepared : (x.marked .prepared old new).valid = true := valid_phase valid ⟨nofun, nofun⟩
    refine (moving_resumes (P := fun x => x.Moved (some (.marker (x.marked .activated old new) none))) rfl
      (fun s => .activated old new valid) valid ⟨more, less⟩ ?_ ?_ ?_
      (x.cleaned.switchEntries_resumes prepared).2.2).weaken (fun t same => same ▸ standing) fun _ => id
    · exact fun s ⟨_, layout, _⟩ => ⟨_, _, _, _, layout⟩
    · rintro x _ _ _ ⟨⟨_, rfl⟩, layout, serial, same⟩ standing
      exact standing.carry ⟨⟨_, rfl⟩, layout, serial, same⟩
    · exact fun s ⟨_, layout, _⟩ => pendingOpens_moved layout.pending (.inr rfl)

end Activation

section Publication

/-- The prepared directory is complete, and no marker was published. -/
def Ready (x : Switch E) (s : RestoreState E D) : Prop :=
  ∃ pending, x.Layout none (some pending) none nothing nothing s ∧ x.Full pending nothing ∧
    pending.keys.length ≤ maxTopLevelEntries

/-- Where the publication of the marker can be interrupted: before the marker has
a name, while it has two, and when it has one. -/
def Publishing (x : Switch E) (s t : RestoreState E D) : Prop :=
  Written none s t ∨ Written (some (.marker x.value (some s.serial))) s t ∨
    Written (some (.marker x.value none)) s t

theorem unlinkTemporary_twin {serial : Nat} {value : Marker}
    (twin : s.root.lookup activationMarker = some (.marker value (some serial))) :
    (unlinkTemporary serial s).root.lookup activationMarker = some (.marker value none) := by
  have kept : (s.root.erase (.temporary serial)).lookup activationMarker = some (.marker value (some serial)) :=
    (lookup_erase_ne (by simp [activationMarker])).trans twin
  unfold unlinkTemporary
  dsimp only
  rw [kept]
  dsimp only
  rw [if_pos rfl]
  exact lookup_insert _

theorem Publishing.unlinked (publishing : x.Publishing s t) : x.Publishing s (unlinkTemporary s.serial t) := by
  rcases publishing with written | written | written
  · refine .inl (written.unlinked ((unlinkTemporary_marker fun value other found => ?_).trans written.marker))
    exact absurd (written.marker.symm.trans found) nofun
  · exact .inr (.inr (written.unlinked (unlinkTemporary_twin written.marker)))
  · refine .inr (.inr (written.unlinked
      ((unlinkTemporary_marker fun value other found => ?_).trans written.marker)))
    exact absurd (written.marker.symm.trans found) nofun

theorem linkMarker_written (written : Written none s t) {u : RestoreState E D}
    (ok : linkMarker s.serial x.value t = .ok u) : Written (some (.marker x.value (some s.serial))) s u := by
  unfold linkMarker at ok
  split at ok
  · cases ok
  · cases ok
    exact ⟨lookup_insert _, fun name differs => (lookup_insert_ne differs).trans (written.texts name differs),
      fun serial before => (lookup_insert_ne (by simp [activationMarker])).trans (written.older serial before),
      fun serial node after found => written.newer serial node after
        ((lookup_insert_ne (by simp [activationMarker])).symm.trans found), written.serial⟩

theorem publish_safe (tidy : Tidy s) (unmarked : s.root.lookup activationMarker = none) :
    Safe (x.Publishing s) (· = s) (atomicJson (D := D) x.value false .done) (x.Publishing s) := by
  have first : Written none s s := ⟨unmarked, fun _ _ => rfl, fun _ _ => rfl,
    fun serial node after found => absurd (tidy serial node found).1 (Nat.not_lt.mpr after), Nat.le_refl _⟩
  refine .read fun _ same => ?_
  subst same
  rename_i s
  refine .write (M := Written none s) (fun _ same => .inl (same ▸ first)) ?_ (.call (fun _ => .inl) ?_)
  · rintro _ rfl
    exact unmarked ▸ written_created tidy
  · refine .attempt (B := x.Publishing s) (M := x.Publishing s) (R := fun _ =>
      True) ?_ ?_ (.done (fun _ => id) fun _ => id)
    · rw [if_neg Bool.false_ne_true]
      refine .step (M := Written (some (.marker x.value (some s.serial))) s) (fun _ => .inl)
        (fun t u before ok => linkMarker_written before ok) (.write (fun _ => fun here => .inr (.inl here)) ?_
          (.call (fun _ => id) (.done (fun _ => id) fun _ => id)))
      exact fun t before => Publishing.unlinked (.inr (.inl before))
    · exact .write (M := x.Publishing s) (fun _ => id) (fun t before =>
        before.unlinked) (.done (fun _ => id) fun _ _ => trivial)

theorem Ready.unpublished (ready : x.Ready s) : x.Unpublished s := by
  obtain ⟨pending, layout, full, _⟩ := ready
  refine ⟨some pending, layout, ?_⟩
  rintro _ ⟨rfl⟩
  rw [full]
  exact x.no_stage _ rfl

theorem value_marked (x : Switch E) : x.value = x.marked .prepared x.value.oldEntries x.value.newEntries := by
  unfold marked
  rw [← x.prepared]

theorem Ready.published (ready : x.Ready s) (publishing : x.Publishing s t) : x.Unpublished t ∨ x.Standing t := by
  obtain ⟨pending, layout, full, small⟩ := id ready
  have prepared : ∀ twin, Written (some (.marker x.value twin)) s t → x.Standing t := by
    intro twin written
    have same := x.value_marked
    refine .prepared x.value.oldEntries x.value.newEntries twin ⟨same ▸ x.valid, pending, none, ?_, full,
      small, nofun⟩
    exact layout.written (same ▸ written)
  rcases publishing with written | written | written
  · obtain ⟨_, _, clean⟩ := ready.unpublished
    refine .inl ⟨some pending, layout.written written, ?_⟩
    rintro _ ⟨rfl⟩
    rw [full]
    exact x.no_stage _ rfl
  · exact .inr (prepared _ written)
  · exact .inr (prepared _ written)

theorem Ready.crashed {effects : Nat → Effect} {error : String} (ready : x.Ready s)
    (crash : effects 2 = .lost error) :
    x.Publishing s ((publishMarker x.value).run effects s).1 := by
  obtain ⟨_, layout, _⟩ := ready
  have safe := publish_safe (x := x) layout.temporaries layout.marker (fun n => effects (3 * n)) s rfl
  unfold publishMarker
  rw [run_attempt]
  cases ended : (atomicJson x.value false .done).run (fun n => effects (3 * n)) s with
  | mk t failure =>
    rw [ended] at safe
    cases failure with
    | none => exact safe.1
    | some _ =>
      dsimp only
      rw [run_ok (show write (clearDirectory x.value.pendingName) t =
        .ok (clearDirectory x.value.pendingName t) from rfl)]
      rw [crash]
      exact safe.1

end Publication

/-- The switch from its preparation on: the publication of the marker, which may
crash, and starts that may be interrupted anywhere. -/
inductive Run (host : RestoreHost E) (x : Switch E) : RestoreState E D → Prop
  | ready {s : RestoreState E D} : x.Ready s → Run host x s
  | publish {s : RestoreState E D} {error : String} (effects : Nat → Effect) : x.Ready s → effects 2 = .lost error →
      Run host x ((publishMarker x.value).run effects s).1
  | activate {s : RestoreState E D} (effects : Nat → Effect) : Run host x s → Fit host s →
      Run host x ((activatePendingRestore host).run effects s).1

theorem Run.standing {host : RestoreHost E} (run : Run host x s) : x.Unpublished s ∨ x.Standing s := by
  induction run with
  | ready ready => exact .inl ready.unpublished
  | publish effects ready crash => exact ready.published (ready.crashed crash)
  | @activate s effects _ fit ih =>
    rcases ih with unpublished | standing
    · exact .inl (Unpublished.resumes.safe effects s unpublished).1
    · by_cases marked : s.root.lookup activationMarker = none
      · exact .inr (.done (Moved.resumes.safe effects s (standing.finished marked)).1)
      · exact .inr ((standing.resumes marked fit).safe effects s rfl).1.1

/-- The root holds exactly the restored entries, the earlier rollback directories
and one with exactly the old entries, stray temporary files aside. -/
structure Switched (x : Switch E) (s : RestoreState E D) : Prop where
  marker : s.root.lookup activationMarker = none
  entries : ∀ name, Plain name → s.root.lookup (.text name) = (x.new name).map .entry
  rollback : ∃ entries, s.root.lookup x.value.rollbackName = some (.directory entries) ∧
    ∀ name, entries.lookup (.text name) = x.old name
  rollbacks : ∀ id ≠ x.value.requestId,
    s.root.lookup (.text (rollbackPrefix ++ id)) = (x.rollbacks id).map .directory
  orphans : ∀ name, orphanRestoreName name = true → s.root.lookup name = none

/-- What the switch promises of a state in which it may have been interrupted. -/
structure AllOrNothing (host : RestoreHost E) (x : Switch E) (s : RestoreState E D) : Prop where
  /-- An old entry is in the root or in the rollback directory. -/
  old_kept : ∀ name entry, x.old name = some entry → s.root.lookup (.text name) = some (.entry entry) ∨
    ∃ entries, s.root.lookup x.value.rollbackName = some (.directory entries) ∧
      entries.lookup (.text name) = some entry
  /-- Once the marker is published, a new entry is in the prepared directory or in the root. -/
  new_kept : s.root.lookup activationMarker ≠ none → ∀ name entry, x.new name = some entry →
    s.root.lookup (.text name) = some (.entry entry) ∨
      ∃ entries, s.root.lookup x.value.pendingName = some (.directory entries) ∧
        entries.lookup (.text name) = some entry
  /-- Without a marker, the root holds all the old entries, or all the new ones. -/
  whole : s.root.lookup activationMarker = none →
    (∀ name, Plain name → s.root.lookup (.text name) = (x.old name).map .entry) ∨
      (∀ name, Plain name → s.root.lookup (.text name) = (x.new name).map .entry) ∧
        ∃ entries, s.root.lookup x.value.rollbackName = some (.directory entries) ∧
          ∀ name, entries.lookup (.text name) = x.old name
  rollbacks_kept : ∀ id entries, x.rollbacks id = some entries →
    s.root.lookup (.text (rollbackPrefix ++ id)) = some (.directory entries)
  /-- In the phase `prepared`, the entries of the root are the old ones. -/
  prepared : ∀ value twin, s.root.lookup activationMarker = some (.marker value twin) → value.phase = .prepared →
    ∀ name, Plain name → s.root.lookup (.text name) = (x.old name).map .entry
  /-- A start that is not interrupted succeeds. -/
  completes : Fit host s → ((activatePendingRestore host).run quiet s).2 = none
  /-- The start that removes the marker leaves the switched directory. -/
  ends : Fit host s → s.root.lookup activationMarker ≠ none → ∀ effects,
    ((activatePendingRestore host).run effects s).1.root.lookup activationMarker = none →
      x.Switched ((activatePendingRestore host).run effects s).1
  /-- The start that comes to its end has removed the marker. -/
  removes : Fit host s → ∀ effects, ((activatePendingRestore host).run effects s).2 = none →
    ((activatePendingRestore host).run effects s).1.root.lookup activationMarker = none

variable {name : String} {entry : Entry E}

theorem Layout.old_kept (layout : x.Layout marker pending rollback out moved s) (known : x.old name = some entry)
    (apart : moved name = true → out name = true)
    (kept : out name = true → ∃ entries, rollback = some entries ∧ entries.lookup (.text name) = some entry) :
    s.root.lookup (.text name) = some (.entry entry) ∨
      ∃ entries, s.root.lookup x.value.rollbackName = some (.directory entries) ∧
        entries.lookup (.text name) = some entry := by
  cases stays : out name with
  | true =>
    obtain ⟨entries, rfl, found⟩ := kept stays
    exact .inr ⟨entries, layout.rollback, found⟩
  | false =>
    have still : moved name ≠ true := fun gone => Bool.false_ne_true (stays ▸ apart gone)
    rw [layout.entries name (x.old_names name entry known).1, rootEntry, if_neg still, stays,
      if_neg Bool.false_ne_true,
      known]
    exact .inl rfl

theorem Layout.new_kept (layout : x.Layout marker pending rollback out moved s) (known : x.new name = some entry)
    (waits : moved name = false → ∃ entries, pending = some entries ∧ entries.lookup (.text name) = some entry) :
    s.root.lookup (.text name) = some (.entry entry) ∨
      ∃ entries, s.root.lookup x.value.pendingName = some (.directory entries) ∧
        entries.lookup (.text name) = some entry := by
  cases here : moved name with
  | true =>
    rw [layout.entries name (x.new_names name entry known).1, rootEntry, here, if_pos rfl, known]
    exact .inl rfl
  | false =>
    obtain ⟨entries, rfl, found⟩ := waits here
    exact .inr ⟨entries, layout.pending, found⟩

theorem Layout.rollbacks_kept (layout : x.Layout marker pending rollback out moved s) {id : String}
    {entries : Directory (Entry E)} (known : x.rollbacks id = some entries) :
    s.root.lookup (.text (rollbackPrefix ++ id)) = some (.directory entries) := by
  rw [layout.rollbacks id (x.rollbacks_names id entries known).2, known]
  rfl

theorem Moved.switched (moved : x.cleaned.Moved none s) : x.Switched s := by
  obtain ⟨rollback, layout, complete⟩ := moved
  refine ⟨layout.marker, fun name plain => ?_, ⟨rollback, layout.rollback, complete⟩, layout.rollbacks,
    fun name orphan => ?_⟩
  · rw [layout.entries name plain]
    rfl
  · by_cases own : name = x.value.pendingName
    · exact own ▸ layout.pending
    · exact layout.cleared name orphan own

theorem Unpublished.untouched {host : RestoreHost E} (standing : x.Unpublished s) : AllOrNothing host x s := by
  obtain ⟨pending, layout, clean⟩ := id standing
  have resumes : Resumes x.Unpublished x.Unpublished (activatePendingRestore (D := D) host) x.Unpublished :=
    Unpublished.resumes
  refine ⟨fun name entry known => layout.old_kept known nofun nofun, fun marked => absurd layout.marker marked,
    fun _ => .inl layout.entries, fun id entries known => layout.rollbacks_kept known, ?_, fun _ =>
      (resumes.completes s standing).1,
    fun _ marked => absurd layout.marker marked, fun _ effects _ => ?_⟩
  · intro value twin recorded
    exact absurd (layout.marker.symm.trans recorded) nofun
  · obtain ⟨_, after, _⟩ := (resumes.safe effects s standing).1
    exact after.marker

theorem Standing.complete {host : RestoreHost E} (standing : x.Standing s) : AllOrNothing host x s := by
  obtain ⟨_, _, _, _, _, view⟩ := standing.view
  have layout := view.layout
  have kept : ∀ fit : Fit host s, (s.root.lookup activationMarker = none ∧
      Resumes (x.Moved none) (· = s) (activatePendingRestore (D := D) host) (x.Moved none)) ∨
      s.root.lookup activationMarker ≠ none ∧
        Resumes x.Interrupted (· = s) (activatePendingRestore host) (x.cleaned.Moved none) := by
    intro fit
    by_cases marked : s.root.lookup activationMarker = none
    · exact .inl ⟨marked, Moved.resumes.weaken (fun t same => same ▸ standing.finished marked) fun _ => id⟩
    · exact .inr ⟨marked, standing.resumes marked fit⟩
  refine ⟨fun name entry known => layout.old_kept known (view.apart name) (view.old name entry known),
    fun _ name entry known => layout.new_kept known (view.new name entry known), fun unmarked => ?_,
    fun id entries known => layout.rollbacks_kept known, fun value twin recorded phase name plain => ?_,
      fun fit => ?_,
    fun fit marked effects gone => ?_, fun fit effects ended => ?_⟩
  · obtain ⟨rollback, later, complete⟩ := standing.finished unmarked
    exact .inr ⟨later.entries, rollback, later.rollback, complete⟩
  · obtain ⟨rfl, rfl⟩ := view.prepared value twin (layout.marker.symm.trans recorded) phase
    exact layout.entries name plain
  · rcases kept fit with ⟨_, resumes⟩ | ⟨_, resumes⟩
    · exact (resumes.completes s rfl).1
    · exact (resumes.completes s rfl).1
  · exact Moved.switched (((standing.resumes marked fit).safe effects s rfl).1.2 gone)
  · rcases kept fit with ⟨_, resumes⟩ | ⟨_, resumes⟩
    · obtain ⟨_, after, _⟩ := (resumes.safe effects s rfl).2 ended
      exact after.marker
    · obtain ⟨_, after, _⟩ := (resumes.safe effects s rfl).2 ended
      exact after.marker

/-- Wherever the publication crashes and however often the starts are interrupted,
nothing is lost, and each start that can read the marker can finish the switch. -/
theorem Run.allOrNothing {host : RestoreHost E} (run : Run host x s) : AllOrNothing host x s :=
  run.standing.elim Unpublished.untouched Standing.complete

section Example

def panelSwitch : Switch Nat where
  value :=
    { requestId := "c0ffee00-0000-4000-8000-000000000000"
      restoreId := "c0ffee00-0000-4000-8000-000000000001"
      pendingDir := ".open-node-restore-pending-c0ffee00-0000-4000-8000-000000000000"
      databaseEngine := .sqlite }
  abandoned := false
  old name := if name = "open-node.db" then some (.data 0) else none
  new name :=
    if name = ".open-node-restore.json" then some (.data 1) else if name = "restore.env" then some (.data 2)
    else if name = "open-node.db" then some (.data 3) else none
  rollbacks _ := none
  valid := by decide
  prepared := rfl
  sqlite := rfl
  old_names := by
    intro name entry known
    split at known
    · rename_i same
      subst same
      exact ⟨⟨by decide, by decide, by decide⟩, by decide⟩
    · cases known
  new_names := by
    intro name entry known
    split at known
    · rename_i same
      subst same
      exact ⟨⟨by decide, by decide, by decide⟩, by decide⟩
    · split at known
      · rename_i same
        subst same
        exact ⟨⟨by decide, by decide, by decide⟩, by decide⟩
      · split at known
        · rename_i same
          subst same
          exact ⟨⟨by decide, by decide, by decide⟩, by decide⟩
        · cases known
  required := by
    intro name member
    simp only [requiredEntries, mem_cons, not_mem_nil, or_false] at member
    rcases member with rfl | rfl | rfl
    · exact ⟨_, rfl, by decide⟩
    · exact ⟨_, rfl, by decide⟩
    · exact ⟨_, rfl, by decide⟩
  no_stage := by
    intro name same
    cases same
    decide
  rollbacks_names := nofun

def panelPending : Directory (Entry Nat) :=
  (((∅ : Directory (Entry Nat)).insert (.text "open-node.db") (.data 3)).insert (.text "restore.env")
    (.data 2)).insert
    (.text ".open-node-restore.json") (.data 1)

def panelReady : RestoreState Nat Unit where
  root := ((∅ : Directory (Node Nat)).insert (.text "open-node.db") (.entry (.data 0))).insert
    panelSwitch.value.pendingName (.directory panelPending)
  databases := ∅

def panelHost : RestoreHost Nat where
  markerBytes _ := 1000
  stageOf _ := none
  currentDatabase := ""

theorem lookup_insert_ite {α : Type} (directory : Directory α) (name other : EntryName) (a : α) :
    (directory.insert name a).lookup other = if other = name then some a else directory.lookup other := by
  split
  · rename_i same
    rw [same, lookup_insert]
  · rename_i differs
    exact lookup_insert_ne differs

theorem panelReady_ready : panelSwitch.Ready panelReady := by
  have rollback_ne : ∀ id, EntryName.text (rollbackPrefix ++ id) ≠ .text "open-node.db" := by
    intro id same
    have found := rollbackOf_eq_some.mpr (Eq.refl (rollbackPrefix ++ id))
    rw [same, show rollbackOf (.text "open-node.db") = none by decide] at found
    cases found
  have others : ∀ name, name ≠ panelSwitch.value.pendingName →
      panelReady.root.lookup name = if name = .text "open-node.db" then some (.entry (.data 0)) else none := by
    intro name differs
    show AList.lookup name (AList.insert _ _ _) = _
    rw [lookup_insert_ne differs, lookup_insert_ite]
    rfl
  refine ⟨panelPending, ⟨?_, lookup_insert _, ?_, fun id _ => ?_, fun name plain => ?_,
    fun name node orphan differs found => ?_,
    fun serial node found => ?_⟩, fun name => ?_, by decide⟩
  · exact others _ (orphan_ne panelSwitch.pendingName_orphan activationMarker_names.1).symm
  · exact (others _ (orphan_ne panelSwitch.pendingName_orphan panelSwitch.rollbackName_kept).symm).trans
      (if_neg (rollback_ne _))
  · exact (others _ (orphan_ne panelSwitch.pendingName_orphan (orphanRestoreName_rollback id)).symm).trans
      (if_neg (rollback_ne id))
  · rw [others _ (orphan_ne panelSwitch.pendingName_orphan plain.2.1).symm]
    by_cases same : name = "open-node.db"
    · subst same
      rfl
    · simp [rootEntry, nothing, panelSwitch, same]
  · rw [others _ differs] at found
    split at found
    · rename_i same
      rw [same] at orphan
      exact absurd orphan (by decide)
    · cases found
  · rw [others (.temporary serial) nofun, if_neg nofun] at found
    cases found
  · cases name with
    | text name =>
      simp only [panelPending, lookup_insert_ite, EntryName.text.injEq]
      rfl
    | temporary serial =>
      simp only [panelPending, lookup_insert_ite]
      rfl

/-- A crash between the second name of the marker and the removal of its first. -/
def linkCrash : Nat → Effect := fun n =>
  if n = 6 then .kept "crash" else if n = 12 ∨ n = 2 then .lost "crash" else .done

/-- The marker then has two names, and each later start fails in the same state. -/
theorem linked_stuck : ∃ (host : RestoreHost Nat) (x : Switch Nat) (s : RestoreState Nat Unit)
    (effects : Nat → Effect),
    x.Ready s ∧ effects 2 = .lost "crash" ∧
      (activatePendingRestore host).run quiet ((publishMarker x.value).run effects s).1 =
        (((publishMarker x.value).run effects s).1, some failed) := by
  refine ⟨panelHost, panelSwitch, panelReady, linkCrash, panelReady_ready, rfl, ?_⟩
  have unread : readMarker panelHost ((publishMarker panelSwitch.value).run linkCrash panelReady).1 =
      .error failed := by
    rfl
  unfold activatePendingRestore
  rw [run_read, unread]
  rfl

/-- A start that crashes after the first move, following a complete publication. -/
theorem panelMoved_allOrNothing : AllOrNothing panelHost panelSwitch ((activatePendingRestore panelHost).run
    (fun n => if n = 17 then .kept "crash" else .done)
      ((publishMarker panelSwitch.value).run (fun n =>
        if n = 2 then .lost "crash" else .done) panelReady).1).1 := by
  refine Run.allOrNothing (.activate _ (.publish _ panelReady_ready rfl) fun value twin found => ?_)
  have recorded : ((publishMarker panelSwitch.value).run (fun n => if n = 2 then .lost "crash" else .done)
      panelReady).1.root.lookup activationMarker = some (.marker panelSwitch.value none) := by rfl
  cases recorded.symm.trans found
  refine ⟨rfl, by decide, by decide, fun _ => ?_⟩
  refine ⟨((publishMarker panelSwitch.value).run (fun n => if n = 2 then .lost "crash" else .done)
    panelReady).1.root.keys ++ [panelSwitch.value.rollbackName], by decide, by simp, fun name present _ => ?_⟩
  exact mem_append_left _ (AList.mem_keys.mp (AList.lookup_isSome.mp present))

end Example

end Switch

end OpenNode.Restore
