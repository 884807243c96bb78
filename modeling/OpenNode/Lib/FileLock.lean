import Mathlib

namespace FileLock

variable {ι : Type*}

inductive LockMode where
  | shared
  | exclusive
deriving DecidableEq, Repr

/-- An open file description, with the descriptor of its owner and those of its children. -/
structure Description (ι : Type*) where
  id : ι
  mode : Option LockMode := none
  owned : Bool := true
  children : Nat := 0
deriving DecidableEq, Repr

def Description.isOpen (description : Description ι) : Bool :=
  description.owned || decide (0 < description.children)

/-- Whether two modes exclude each other. -/
def LockMode.excludes : LockMode → LockMode → Bool
  | .shared, .shared => false
  | _, _ => true

def openFile (id : ι) (table : List (Description ι)) : List (Description ι) :=
  { id } :: table

/-- An exclusive lock is the only one. -/
structure Exclusive (table : List (Description ι)) : Prop where
  unique : (table.map Description.id).Nodup
  alone : ∀ first ∈ table, ∀ second ∈ table, first.isOpen = true → second.isOpen = true →
    first.mode = some .exclusive → second.mode ≠ none → first.id = second.id

/-- The owner of a description holds it in a mode. -/
def Held (table : List (Description ι)) (id : ι) (mode : Option LockMode) : Prop :=
  ∃ description ∈ table, description.id = id ∧ description.owned = true ∧ description.mode = mode

section Tables
variable {table : List (Description ι)} {id other : ι} {mode : Option LockMode}

theorem Exclusive.openFile (sound : Exclusive table) (new : id ∉ table.map Description.id) :
    Exclusive (openFile id table) where
  unique := List.nodup_cons.mpr ⟨new, sound.unique⟩
  alone first here second there isOpen isOpen' exclusive held := by
    rcases List.mem_cons.mp here with rfl | before
    · cases exclusive
    · rcases List.mem_cons.mp there with rfl | before'
      · exact absurd rfl held
      · exact sound.alone first before second before' isOpen isOpen' exclusive held

theorem Held.openFile (held : Held table id mode) : Held (openFile other table) id mode := by
  obtain ⟨description, here, rest⟩ := held
  exact ⟨description, List.mem_cons_of_mem _ here, rest⟩

theorem held_openFile : Held (openFile id table) id none :=
  ⟨_, List.mem_cons_self, rfl, rfl, rfl⟩

theorem Held.mem_ids (held : Held table id mode) : id ∈ table.map Description.id := by
  obtain ⟨description, here, rfl, -⟩ := held
  exact List.mem_map_of_mem here

theorem Exclusive.of_held (sound : Exclusive table) (held : Held table id (some .exclusive))
    {description : Description ι} (here : description ∈ table) (isOpen : description.isOpen = true)
    (locked : description.mode ≠ none) : description.id = id := by
  obtain ⟨first, there, same, owned, mode⟩ := held
  have firstOpen : first.isOpen = true := by rw [Description.isOpen, owned, Bool.true_or]
  exact (sound.alone first there description here firstOpen isOpen mode locked).symm.trans same

end Tables

variable [DecidableEq ι]

/-- Whether a description may take a lock without waiting. -/
def grants (id : ι) (mode : LockMode) (table : List (Description ι)) : Bool :=
  table.all fun other => other.id == id || !other.isOpen || !other.mode.any mode.excludes

/-- A change of the description of one owner. -/
def edit (id : ι) (change : Description ι → Description ι) (table : List (Description ι)) : List (Description ι) :=
  table.map fun description => if description.id = id then change description else description

def lock (id : ι) (mode : LockMode) : List (Description ι) → List (Description ι) :=
  edit id fun description => { description with mode := some mode }

def closeFile (id : ι) : List (Description ι) → List (Description ι) :=
  edit id fun description => { description with owned := false }

/-- A child inherits a descriptor that is open. -/
def inherit (id : ι) : List (Description ι) → List (Description ι) :=
  edit id fun description =>
    if description.isOpen then { description with children := description.children + 1 } else description

def childExit (id : ι) : List (Description ι) → List (Description ι) :=
  edit id fun description => { description with children := description.children - 1 }

variable {table : List (Description ι)} {id other : ι} {mode : Option LockMode}

variable {change : Description ι → Description ι}

theorem mem_edit {description : Description ι} (here : description ∈ edit id change table) :
    ∃ old ∈ table, (old.id = id ∧ description = change old) ∨ (old.id ≠ id ∧ description = old) := by
  obtain ⟨old, before, rfl⟩ := List.mem_map.mp here
  refine ⟨old, before, ?_⟩
  by_cases same : old.id = id
  · exact Or.inl ⟨same, by rw [if_pos same]⟩
  · exact Or.inr ⟨same, by rw [if_neg same]⟩

theorem map_id_edit (keeps : ∀ description, (change description).id = description.id) :
    (edit id change table).map Description.id = table.map Description.id := by
  rw [edit, List.map_map]
  refine List.map_congr_left fun description _ => ?_
  simp only [Function.comp_apply]
  split
  · exact keeps description
  · rfl

theorem Exclusive.edit (sound : Exclusive table)
    (keeps : ∀ description, (change description).id = description.id ∧ (change description).mode = description.mode)
    (opens : ∀ description, (change description).isOpen = true → description.isOpen = true) :
    Exclusive (edit id change table) where
  unique := by
    rw [map_id_edit fun description => (keeps description).1]
    exact sound.unique
  alone first here second there isOpen isOpen' exclusive held := by
    have back : ∀ description ∈ FileLock.edit id change table, description.isOpen = true →
        ∃ old ∈ table, old.id = description.id ∧ old.mode = description.mode ∧ old.isOpen = true := by
      intro description here isOpen
      obtain ⟨old, before, ⟨-, rfl⟩ | ⟨-, rfl⟩⟩ := mem_edit here
      · exact ⟨old, before, (keeps old).1.symm, (keeps old).2.symm, opens old isOpen⟩
      · exact ⟨description, before, rfl, rfl, isOpen⟩
    obtain ⟨old, before, id, mode, isOpen⟩ := back first here isOpen
    obtain ⟨old', before', id', mode', isOpen'⟩ := back second there isOpen'
    rw [← id, ← id']
    exact sound.alone old before old' before' isOpen isOpen' (mode.trans exclusive) (mode' ▸ held)

theorem Exclusive.closeFile (sound : Exclusive table) : Exclusive (closeFile id table) :=
  sound.edit (fun _ => ⟨rfl, rfl⟩) fun description isOpen => by
    simp only [Description.isOpen, Bool.false_or] at isOpen
    simp [Description.isOpen, isOpen]

theorem Exclusive.inherit (sound : Exclusive table) : Exclusive (inherit id table) := by
  refine sound.edit (fun description => ?_) fun description isOpen => ?_
  · split <;> exact ⟨rfl, rfl⟩
  · split at isOpen
    · assumption
    · exact isOpen

theorem Exclusive.childExit (sound : Exclusive table) : Exclusive (childExit id table) := by
  refine sound.edit (fun _ => ⟨rfl, rfl⟩) fun description isOpen => ?_
  simp only [Description.isOpen, Bool.or_eq_true, decide_eq_true_eq] at isOpen ⊢
  exact isOpen.imp (fun owned => owned) fun left => by omega

theorem Exclusive.lock (sound : Exclusive table) {wanted : LockMode} (granted : grants id wanted table = true) :
    Exclusive (lock id wanted table) where
  unique := by
    rw [FileLock.lock, map_id_edit (by intro _; rfl)]
    exact sound.unique
  alone first here second there isOpen isOpen' exclusive held := by
    have room : ∀ description ∈ table, description.id ≠ id → description.isOpen = true →
        description.mode.any wanted.excludes = false := by
      intro description before differs isOpen
      have free := List.all_eq_true.mp granted description before
      simpa [differs, isOpen] using free
    obtain ⟨old, before, ⟨same, rfl⟩ | ⟨differs, rfl⟩⟩ := mem_edit here
    · obtain ⟨old', before', ⟨same', rfl⟩ | ⟨differs', rfl⟩⟩ := mem_edit there
      · exact same.trans same'.symm
      · -- an exclusive lock was granted over one that is held
        have free := room second before' differs' isOpen'
        have same : wanted = .exclusive := Option.some.inj exclusive
        subst same
        cases known : second.mode with
        | none => exact absurd known held
        | some kind =>
          rw [known] at free
          cases kind <;> simp [LockMode.excludes] at free
    · obtain ⟨old', before', ⟨same', rfl⟩ | ⟨differs', rfl⟩⟩ := mem_edit there
      · -- a lock was granted over an exclusive one
        have free := room first before differs isOpen
        rw [exclusive] at free
        cases wanted <;> simp [LockMode.excludes] at free
      · exact sound.alone first before second before' isOpen isOpen' exclusive held

theorem Held.edit (held : Held table id mode)
    (keeps : other ≠ id ∨ ∀ description, (change description).id = description.id ∧
      (change description).owned = description.owned ∧ (change description).mode = description.mode) :
    Held (edit other change table) id mode := by
  obtain ⟨description, here, rfl, owned, mode⟩ := held
  refine ⟨if description.id = other then change description else description, List.mem_map_of_mem here, ?_⟩
  rcases keeps with differs | keeps
  · rw [if_neg (Ne.symm differs)]
    exact ⟨rfl, owned, mode⟩
  · obtain ⟨id, owned', mode'⟩ := keeps description
    split
    · exact ⟨id, owned'.trans owned, mode'.trans mode⟩
    · exact ⟨rfl, owned, mode⟩

theorem Held.lock_self (held : Held table id mode) (wanted : LockMode) :
    Held (lock id wanted table) id (some wanted) := by
  obtain ⟨description, here, same, owned, -⟩ := held
  refine ⟨if description.id = id then { description with mode := some wanted } else description,
    List.mem_map_of_mem here, ?_⟩
  rw [if_pos same]
  exact ⟨same, owned, rfl⟩

theorem Held.inherit (held : Held table id mode) : Held (inherit other table) id mode := by
  refine held.edit (Or.inr fun description => ?_)
  split <;> exact ⟨rfl, rfl, rfl⟩

theorem Held.childExit (held : Held table id mode) : Held (childExit other table) id mode :=
  held.edit (Or.inr fun _ => ⟨rfl, rfl, rfl⟩)

end FileLock
