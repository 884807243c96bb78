import OpenNode.Lib.FileLock

namespace OpenNode.BackupCoordination

open FileLock

inductive OperationKind where
  | work
  | agent
deriving DecidableEq, Repr

/-- `_LeaseRecord`. Its descriptor is that of the description with its number. -/
structure LeaseRecord where
  id : Nat
  kind : OperationKind
  descriptor : Bool
  holders : List Nat
deriving DecidableEq, Repr

/-- Where the thread stands that is inside `snapshot` with the ticket. -/
inductive Attempt where
  /-- waits for the work to end -/
  | work
  /-- waits for the agents to end -/
  | agent
  | acquire
  | opened (fd : Nat)
  | granted (fd : Nat)
  | locked (fd : Nat)
  | permitted (fd : Nat)
  /-- is on its way out -/
  | ending (fd : Option Nat)
deriving DecidableEq, Repr

structure BackupWriteBarrier where
  records : List LeaseRecord := []
  closed : Bool := false
  workPaused : Bool := false
  agentPaused : Bool := false
  snapshotTicket : Option Nat := none
  permit : Option Nat := none
  exclusive : Option Nat := none
  anchored : Bool := true
  attempt : Option Attempt := none
deriving DecidableEq, Repr

inductive CoordinationError where
  | unavailable
  | busy
deriving DecidableEq, Repr

/-- The barriers of the processes, and the descriptions of the lock file, by process and number. -/
structure Host where
  barriers : Nat → BackupWriteBarrier
  locks : List (Description (Nat × Nat)) := []
  serial : Nat := 0

namespace BackupWriteBarrier

/-- The live record that a context refers to: `_record_active`. -/
def activeRecord (context : Option Nat) (barrier : BackupWriteBarrier) : Option LeaseRecord :=
  barrier.records.find? fun record => context == some record.id && !record.holders.isEmpty

def paused (kind : OperationKind) (barrier : BackupWriteBarrier) : Bool :=
  match kind with
  | .work => barrier.workPaused
  | .agent => barrier.agentPaused

def has (kind : OperationKind) (barrier : BackupWriteBarrier) : Bool :=
  barrier.records.any (·.kind == kind)

/-- The record of a lease that is held. -/
def recordOf (id lease : Nat) (barrier : BackupWriteBarrier) : Option LeaseRecord :=
  barrier.records.find? fun record => record.id == id && record.holders.contains lease

end BackupWriteBarrier

namespace Host

variable (process : Nat)

def setBarrier (barrier : BackupWriteBarrier) (s : Host) : Host :=
  { s with barriers := Function.update s.barriers process barrier }

def close? (fd : Option Nat) (s : Host) : Host :=
  match fd with
  | none => s
  | some fd => { s with locks := closeFile (process, fd) s.locks }

/-- A record of its own for an operation, with a shared lock where there is a lock file. -/
def newLease (kind : OperationKind) (descriptor : Bool) (s : Host) : Host :=
  let barrier := s.barriers process
  { s.setBarrier process { barrier with
      records := ⟨s.serial, kind, descriptor, [s.serial + 1]⟩ :: barrier.records } with
    serial := s.serial + 2
    locks := if descriptor then lock (process, s.serial) .shared (openFile (process, s.serial) s.locks)
      else s.locks }

/-- A nested operation holds the record of its context too. -/
def join (record : LeaseRecord) (s : Host) : Host :=
  let barrier := s.barriers process
  { s.setBarrier process { barrier with
      records := barrier.records.map fun other =>
        if other.id = record.id then { other with holders := s.serial :: other.holders } else other } with
    serial := s.serial + 1 }

/-- The entry of `operation`. The context may be a copy, also of one whose lease has ended. -/
def enter (kind : OperationKind) (context : Option Nat) (intact : Bool) (s : Host) :
    Except CoordinationError Unit × Host :=
  let barrier := s.barriers process
  if barrier.closed || !intact then (.error .unavailable, s)
  else
    match (barrier.activeRecord context).filter (·.kind == kind) with
    | some record => (.ok (), s.join process record)
    | none =>
      if barrier.paused kind then (.error .busy, s)
      else if !barrier.anchored then (.ok (), s.newLease process kind false)
      else if grants (process, s.serial) .shared s.locks then (.ok (), s.newLease process kind true)
      else (.error .busy, s)

/-- `_release`. -/
def exit (id lease : Nat) (s : Host) : Except CoordinationError Unit × Host :=
  let barrier := s.barriers process
  match barrier.recordOf id lease with
  | none => (.error .unavailable, s)
  | some record =>
    let holders := record.holders.erase lease
    if holders.isEmpty then
      (.ok (), (s.setBarrier process { barrier with records := barrier.records.filter (·.id != id) }).close? process
        (if record.descriptor then some id else none))
    else
      (.ok (), s.setBarrier process { barrier with records := barrier.records.map fun other =>
        if other.id = id then { other with holders := holders } else other })

/-- A child inherits `child_fds`. -/
def spawn (id lease : Nat) (s : Host) : Except CoordinationError Unit × Host :=
  let barrier := s.barriers process
  if barrier.closed then (.error .unavailable, s)
  else
    match barrier.recordOf id lease with
    | none => (.error .unavailable, s)
    | some record => (.ok (), if record.descriptor then { s with locks := inherit (process, id) s.locks } else s)

/-- The admission of `snapshot`. -/
def snapshot (context : Option Nat) (intact : Bool) (s : Host) : Except CoordinationError Unit × Host :=
  let barrier := s.barriers process
  if barrier.closed || !barrier.anchored then (.error .unavailable, s)
  else if barrier.snapshotTicket.isSome || (barrier.activeRecord context).isSome then (.error .busy, s)
  else if !intact then (.error .unavailable, s)
  else
    (.ok (), { s.setBarrier process { barrier with
        snapshotTicket := some s.serial, workPaused := true, attempt := some .work } with
      serial := s.serial + 1 })

/-- The next step of `snapshot` up to its permit. It waits while there is something to wait for. -/
def advance (s : Host) : Except CoordinationError Unit × Host :=
  let barrier := s.barriers process
  match barrier.attempt with
  | some .work =>
    if barrier.has .work then (.ok (), s)
    else (.ok (), s.setBarrier process { barrier with agentPaused := true, attempt := some .agent })
  | some .agent =>
    if barrier.has .agent then (.ok (), s)
      else (.ok (), s.setBarrier process { barrier with attempt := some .acquire })
  | some .acquire =>
    (.ok (), { s.setBarrier process { barrier with attempt := some (.opened s.serial) } with
      serial := s.serial + 1, locks := openFile (process, s.serial) s.locks })
  | some (.opened fd) =>
    if grants (process, fd) .exclusive s.locks then
      (.ok (), { s.setBarrier process { barrier with attempt := some (.granted fd) } with
        locks := lock (process, fd) .exclusive s.locks })
    else (.ok (), s)
  | some (.granted fd) => (.ok (), s.setBarrier process { barrier with attempt := some (.locked fd) })
  | some (.locked fd) =>
    (.ok (), s.setBarrier process { barrier with
      exclusive := some fd, permit := barrier.snapshotTicket, attempt := some (.permitted fd) })
  | _ => (.error .unavailable, s)

/-- A timeout or a failure of `snapshot`, or the end of its body. `_acquire_exclusive` closes what it has opened. -/
def abandon (s : Host) : Except CoordinationError Unit × Host :=
  let barrier := s.barriers process
  match barrier.attempt with
  | some .work | some .agent | some .acquire =>
    (.ok (), s.setBarrier process { barrier with attempt := some (.ending none) })
  | some (.opened fd) | some (.granted fd) =>
    (.ok (), (s.setBarrier process { barrier with attempt := some (.ending none) }).close? process (some fd))
  | some (.locked fd) | some (.permitted fd) =>
    (.ok (), s.setBarrier process { barrier with attempt := some (.ending (some fd)) })
  | _ => (.error .unavailable, s)

/-- The last section of `snapshot`. -/
def finish (s : Host) : Except CoordinationError Unit × Host :=
  let barrier := s.barriers process
  match barrier.attempt with
  | some (.ending fd) =>
    (.ok (), (s.setBarrier process { barrier with
      permit := none, exclusive := none, snapshotTicket := none, workPaused := false, agentPaused := false
      attempt := none }).close? process fd)
  | _ => (.error .unavailable, s)

def close (s : Host) : Except CoordinationError Unit × Host :=
  let barrier := s.barriers process
  if barrier.closed then (.ok (), s)
  else if !barrier.records.isEmpty || barrier.snapshotTicket.isSome then (.error .busy, s)
  else (.ok (), s.setBarrier process { barrier with closed := true })

end Host

inductive BarrierEvent where
  | enter (kind : OperationKind) (context : Option Nat) (intact : Bool)
  | exit (id lease : Nat)
  | spawn (id lease : Nat)
  | childExit (id : Nat)
  | snapshot (context : Option Nat) (intact : Bool)
  | advance
  | abandon
  | finish
  | close
deriving DecidableEq, Repr

/-- What happens in a process. -/
def Host.apply (process : Nat) (s : Host) : BarrierEvent → Except CoordinationError Unit × Host
  | .enter kind context intact => s.enter process kind context intact
  | .exit id lease => s.exit process id lease
  | .spawn id lease => s.spawn process id lease
  | .childExit id => (.ok (), { s with locks := FileLock.childExit (process, id) s.locks })
  | .snapshot context intact => s.snapshot process context intact
  | .advance => s.advance process
  | .abandon => s.abandon process
  | .finish => s.finish process
  | .close => s.close process

/-- The runs of any number of processes. -/
inductive Reaches (s : Host) : Host → Prop
  | refl : Reaches s s
  | step {t : Host} (process : Nat) (event : BarrierEvent) (before : Reaches s t) :
      Reaches s (t.apply process event).2

end OpenNode.BackupCoordination
