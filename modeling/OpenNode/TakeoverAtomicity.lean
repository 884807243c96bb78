import OpenNode.Lib.Dict
import OpenNode.XrayTakeover

namespace OpenNode.Agent

open Interruption List Program TakeoverState

namespace Takeover

/-- The service has the files of the takeover, each with its original or its
replacement. -/
structure Mixed (record : Takeover) (service : Service) : Prop where
  names : service.binding.files = record.files.map Prod.fst
  either : ∀ file ∈ record.files, service.disk file.1 = file.2 ∨ service.disk file.1 = record.replacement file.1

/-- Every file has its original bytes. -/
def Old (record : Takeover) (service : Service) : Prop :=
  service.snapshot = record.files

/-- The target has the merged configuration, and every other file is an empty object. -/
def New (record : Takeover) (service : Service) : Prop :=
  service.snapshot = record.replaced

def Whole (record : Takeover) (service : Service) : Prop :=
  record.Old service ∨ record.New service

/-- What a phase in the journal says of the host. -/
structure Stands (record : Takeover) (phase : TakeoverPhase) (service : Service) : Prop where
  mixed : record.Mixed service
  rolledBack : phase = .rolledBack → record.Old service ∧ service.running = record.running
  complete : phase = .complete → record.New service ∧ service.running = record.running

variable {record : Takeover} {service : Service} {phase : TakeoverPhase}

theorem Stands.of_pending (mixed : record.Mixed service) (active : phase.pending = true) :
    record.Stands phase service := by
  refine ⟨mixed, fun ended => ?_, fun ended => ?_⟩
  · rw [ended] at active
    cases active
  · rw [ended] at active
    cases active

theorem mem_snapshot {name : String} {raw : Bytes} :
    (name, raw) ∈ service.snapshot ↔ name ∈ service.binding.files ∧ service.disk name = raw := by
  simp only [Service.snapshot, mem_map, Prod.mk.injEq]
  constructor
  · rintro ⟨_, member, rfl, content⟩
    exact ⟨member, content⟩
  · rintro ⟨member, content⟩
    exact ⟨name, member, rfl, content⟩

theorem Old.mixed (old : record.Old service) : record.Mixed service where
  names := by rw [← old, Service.snapshot_names]
  either file member := by
    rw [← old] at member
    exact .inl (mem_snapshot.mp member).2

theorem Mixed.old (mixed : record.Mixed service) (all : ∀ file ∈ record.files, service.disk file.1 = file.2) :
    record.Old service := by
  unfold Old Service.snapshot
  rw [mixed.names, map_map]
  conv_rhs => rw [← map_id record.files]
  refine map_congr_left fun file member => ?_
  exact Prod.ext rfl (all file member)

theorem Mixed.writeFile (mixed : record.Mixed service) {file : String × Bytes} (member : file ∈ record.files)
    {new : Bytes} (known : new = file.2 ∨ new = record.replacement file.1) :
    record.Mixed (service.writeFile file.1 new) where
  names := mixed.names
  either other at_ := by
    by_cases same : other.1 = file.1
    · cases inj_on_of_nodup_map record.distinct at_ member same
      simp only [Service.writeFile, if_true]
      exact known
    · simp only [Service.writeFile, same, if_false]
      exact mixed.either other at_

theorem mixed_of_known (names : service.binding.files = record.files.map Prod.fst) (known : service.known record) :
    record.Mixed service where
  names := names
  either file member := by
    have listed : file.1 ∈ service.binding.files := names ▸ List.mem_map.mpr ⟨file, member, rfl⟩
    rcases known _ (mem_snapshot.mpr ⟨listed, rfl⟩) with old | new
    · have same := inj_on_of_nodup_map record.distinct ((Dict.lookup_eq_some record.distinct).mp old) member rfl
      exact .inl (congrArg Prod.snd same)
    · exact .inr new

theorem Mixed.known (mixed : record.Mixed service) : service.known record := by
  rintro ⟨name, raw⟩ member
  obtain ⟨listed, content⟩ := mem_snapshot.mp member
  rw [mixed.names] at listed
  obtain ⟨file, at_, rfl⟩ := List.mem_map.mp listed
  rw [← content]
  rcases mixed.either file at_ with old | new
  · refine .inl ((Dict.lookup_eq_some record.distinct).mpr ?_)
    rw [old]
    exact at_
  · exact .inr new

/-- The files and the service of a takeover that was found as `service`. -/
structure Found (record : Takeover) (service : Service) : Prop where
  old : record.Old service
  running : service.running = record.running

theorem Stands.prepared (found : record.Found service) : record.Stands .prepared service :=
  .of_pending found.old.mixed rfl

end Takeover

/-- What holds of the journal, the memory and the host in every run. -/
structure TakeoverSound (s : TakeoverState) : Prop where
  stands : ∀ record phase, s.journal = some (record, phase) → s.edited = false → record.Stands phase s.service
  edited : s.edited = true →
    s.pendingTakeover = false ∧ ∀ record phase, s.journal = some (record, phase) → phase.pending = false
  held : s.pendingTakeover = true →
    ∃ record phase phase', s.journal = some (record, phase) ∧ s.memory = some (record, phase')
  idle : s.pendingTakeover = false → ∀ record phase, s.journal = some (record, phase) → s.edited = false →
    record.Whole s.service ∧ s.service.running = record.running
  starts : ∀ start ∈ s.starts, start.2 = start.1.files ∨ start.2 = start.1.replaced

/-- The takeover is the one in memory and in the journal. -/
structure Held (record : Takeover) (s : TakeoverState) : Prop where
  sound : TakeoverSound s
  journal : ∃ phase, s.journal = some (record, phase)
  memory : ∃ phase, s.memory = some (record, phase)
  current : s.edited = false

/-- The takeover once a phase is saved, with what holds of the host. -/
structure Saved (record : Takeover) (phase : TakeoverPhase) (R : Service → Prop) (s : TakeoverState) : Prop where
  held : Held record s
  journal : s.journal = some (record, phase)
  pending : s.pendingTakeover = phase.pending
  here : R s.service

variable {s : TakeoverState} {record : Takeover} {phase : TakeoverPhase} {R T : Service → Prop}

theorem Held.mixed (held : Held record s) : record.Mixed s.service := by
  obtain ⟨phase, journal⟩ := held.journal
  exact (held.sound.stands record phase journal held.current).mixed

theorem TakeoverSound.hold (sound : TakeoverSound s) (pending : s.pendingTakeover = true) :
    ∃ record, Held record s := by
  obtain ⟨record, phase, phase', journal, memory⟩ := sound.held pending
  refine ⟨record, sound, ⟨phase, journal⟩, ⟨phase', memory⟩, ?_⟩
  by_contra changed
  rw [Bool.not_eq_false] at changed
  rw [(sound.edited changed).1] at pending
  cases pending

theorem TakeoverSound.enter (sound : TakeoverSound s) : TakeoverSound (s.enter phase) where
  stands := sound.stands
  edited := sound.edited
  held pending := by
    obtain ⟨record, old, old', journal, memory⟩ := sound.held pending
    exact ⟨record, old, phase, journal, by rw [TakeoverState.enter, memory]; rfl⟩
  idle := sound.idle
  starts := sound.starts

theorem TakeoverSound.store (sound : TakeoverSound s) (memory : s.memory = some (record, phase))
    (stands : record.Stands phase s.service)
    (whole : s.pendingTakeover = false → record.Whole s.service ∧ s.service.running = record.running) :
    TakeoverSound s.store where
  stands other phase' same _ := by
    cases memory.symm.trans same
    exact stands
  edited := nofun
  held _ := ⟨record, phase, phase, memory, memory⟩
  idle idle other phase' same _ := by
    cases memory.symm.trans same
    exact whole idle
  starts := sound.starts

theorem TakeoverSound.setPending (sound : TakeoverSound s) (memory : s.memory = some (record, phase))
    (journal : s.journal = some (record, phase)) (current : s.edited = false) :
    TakeoverSound (s.setPending phase.pending) where
  stands := sound.stands
  edited changed := absurd (current.symm.trans changed) nofun
  held _ := ⟨record, phase, phase, journal, memory⟩
  idle ended other phase' same _ := by
    cases journal.symm.trans same
    have stands := sound.stands record phase journal current
    cases phase with
    | complete => exact ⟨.inr (stands.complete rfl).1, (stands.complete rfl).2⟩
    | rolledBack => exact ⟨.inl (stands.rolledBack rfl).1, (stands.rolledBack rfl).2⟩
    | _ => cases ended
  starts := sound.starts

theorem Saved.imp (saved : Saved record phase R s) (weaker : R s.service → T s.service) : Saved record phase T s :=
  ⟨saved.held, saved.journal, saved.pending, weaker saved.here⟩

theorem Saved.move (saved : Saved record phase R s) (active : phase.pending = true) {service : Service}
    {starts : List (Takeover × List (String × Bytes))} (mixed : record.Mixed service)
    (whole : ∀ start ∈ starts, start.2 = start.1.files ∨ start.2 = start.1.replaced) (here : T service) :
    Saved record phase T { s with service := service, starts := starts } where
  held :=
    { sound :=
        { stands := fun other phase' same _ => by
            cases saved.journal.symm.trans same
            exact .of_pending mixed active
          edited := saved.held.sound.edited
          held := saved.held.sound.held
          idle := fun idle => absurd ((saved.pending.trans active).symm.trans idle) nofun
          starts := whole }
      journal := saved.held.journal
      memory := saved.held.memory
      current := saved.held.current }
  journal := saved.journal
  pending := saved.pending
  here := here

theorem Saved.setDesiredRunning (saved : Saved record phase R s) (running : Bool) :
    Saved record phase R (s.setDesiredRunning running) where
  held := ⟨⟨saved.held.sound.stands, saved.held.sound.edited, saved.held.sound.held, saved.held.sound.idle,
    saved.held.sound.starts⟩, saved.held.journal, saved.held.memory, saved.held.current⟩
  journal := saved.journal
  pending := saved.pending
  here := saved.here

section Programs

variable {C P Q : TakeoverState → Prop}

theorem save_safe {M N : TakeoverState → Prop} (start : ∀ s, P s → C s) (entered : ∀ s, P s → M (s.enter phase))
    (before : ∀ s, M s → C s) (stored : ∀ s, M s → N s.store) (after : ∀ s, N s → C s)
    (last : ∀ s, N s → C (s.setPending phase.pending) ∧ Q (s.setPending phase.pending)) :
    Safe C P (save phase) Q := by
  refine .write start entered (.seq (M := M) ?_ (.write before stored ?_))
  · split
    · exact .done before fun _ => id
    · exact .call before (.done before fun _ => id)
  · exact .write (M := fun s => C s ∧ Q s) after last (.done (fun _ both => both.1) fun _ both => both.2)

theorem Held.save (stands : ∀ s, Held record s → R s.service → record.Stands phase s.service) :
    Safe (Held record) (fun s => Held record s ∧ R s.service) (save phase) (Saved record phase R) := by
  have entered : ∀ s, Held record s → Held record (s.enter phase) ∧
      (s.enter phase).memory = some (record, phase) := by
    intro s held
    obtain ⟨old, memory⟩ := held.memory
    have renamed : (s.enter phase).memory = some (record, phase) := by
      rw [TakeoverState.enter, memory]
      rfl
    exact ⟨⟨held.sound.enter, held.journal, ⟨phase, renamed⟩, held.current⟩, renamed⟩
  have whole : ∀ s, Held record s → s.pendingTakeover = false →
      record.Whole s.service ∧ s.service.running = record.running := by
    intro s held idle
    obtain ⟨old, journal⟩ := held.journal
    exact held.sound.idle idle record old journal held.current
  refine save_safe (M := fun s => Held record s ∧ s.memory = some (record, phase) ∧ R s.service)
    (N := fun s => Held record s ∧ s.memory = some (record, phase) ∧ s.journal = some (record, phase) ∧ R s.service)
    (fun s both => both.1) ?_ (fun s all => all.1) ?_ (fun s all => all.1) ?_
  · rintro s ⟨held, here⟩
    exact ⟨(entered s held).1, (entered s held).2, here⟩
  · rintro s ⟨held, memory, here⟩
    refine ⟨⟨?_, ⟨phase, memory⟩, ⟨phase, memory⟩, rfl⟩, memory, memory, here⟩
    exact held.sound.store memory (stands s held here) (whole s held)
  · rintro s ⟨held, memory, journal, here⟩
    have sound := held.sound.setPending memory journal held.current
    have next : Held record (s.setPending phase.pending) := ⟨sound, held.journal, held.memory, held.current⟩
    exact ⟨next, next, journal, rfl, here⟩

theorem Saved.save {next : TakeoverPhase}
    (stands : ∀ s, Held record s → R s.service → record.Stands next s.service) :
    Safe (Held record) (Saved record phase R) (save next) (Saved record next R) :=
  (Held.save stands).weaken (fun _ saved => ⟨saved.held, saved.here⟩) fun _ => id

variable {binding : Binding} {values : List (String × Bytes)}

theorem unchanged_safe (start : ∀ s, P s → C s) :
    Safe C P (unchanged binding values) fun s => P s ∧ s.service.snapshot = values := by
  refine .call start (.guard start ?_)
  refine .guard (fun s both => start s both.1) ?_
  refine .guard (fun s both => start s both.1.1) ?_
  exact .done (fun s both => start s both.1.1.1) fun s both => ⟨both.1.1.1, both.2⟩

theorem Saved.unchanged (weaker : ∀ service, service.snapshot = values → R service → T service) :
    Safe (Held record) (Saved record phase R) (unchanged binding values) (Saved record phase T) := by
  refine (unchanged_safe fun _ saved => saved.held).weaken (fun _ => id) ?_
  rintro s ⟨saved, same⟩
  exact saved.imp (weaker s.service same)

variable {Config : Type} {host : TakeoverHost Config}

theorem native_safe {argv : List String} (start : ∀ s, P s → C s) : Safe C P (native host argv) P :=
  .guard start (.done (fun s both => start s both.1) fun _ both => both.1)

theorem Saved.controlIf {condition start : Bool} (active : phase.pending = true)
    (whole : start = true → ∀ service, R service → record.Whole service)
    (on : condition = true → ∀ service, R service → T { service with running := start })
    (off : condition = false → ∀ service, R service → T service) :
    Safe (Held record) (Saved record phase R) (controlIf condition record start) (Saved record phase T) := by
  cases condition with
  | false => exact .done (fun _ saved => saved.held) fun s saved => saved.imp (off rfl s.service)
  | true =>
    refine .call (fun _ saved => saved.held) (.write (fun _ saved => saved.held) ?_
      (.done (fun _ saved => saved.held) fun _ => id))
    intro s saved
    have mixed := saved.held.mixed
    refine saved.move active ⟨mixed.names, mixed.either⟩ ?_ (on rfl s.service saved.here)
    cases start with
    | false => exact saved.held.sound.starts
    | true =>
      intro begun member
      rcases List.mem_append.mp member with before | last
      · exact saved.held.sound.starts begun before
      · rw [List.mem_singleton.mp last]
        exact whole rfl s.service saved.here

theorem Saved.each {error : String} {expected raw : String × Bytes → Bytes}
    (I : List (String × Bytes) → Service → Prop) (active : phase.pending = true)
    (known : ∀ file, raw file = file.2 ∨ raw file = record.replacement file.1)
    (turn : ∀ past file, (∀ other ∈ past ++ [file], other ∈ record.files) → ∀ service, I past service →
      I (past ++ [file]) (service.writeFile file.1 (raw file))) :
    Safe (Held record) (Saved record phase (I []))
      (Program.each (fun file => replaceFile error file.1 (expected file) (raw file)) record.files)
      (Saved record phase (I record.files)) := by
  refine .each (I := fun past => Saved record phase (I past)) record.files (fun _ _ _ _ saved => saved.held) ?_
  intro past file rest split s t saved ok
  have member : ∀ other ∈ past ++ [file], other ∈ record.files := by
    intro other listed
    rw [split, ← singleton_append, ← append_assoc]
    exact mem_append_left _ listed
  have mixed := saved.held.mixed.writeFile (member file (mem_append_right _ mem_cons_self)) (known file)
  unfold replaceFile at ok
  split at ok
  · cases ok
  · cases ok
    exact saved.move active mixed saved.held.sound.starts (turn past file member s.service saved.here)

theorem restoreTakeover_safe :
    Safe (Held record) (Held record) (restoreTakeover host record) (Saved record .rolledBack record.Found) := by
  refine .call (fun _ => id) (.guard (fun _ => id) (.guard (fun _ both => both.1) ?_))
  refine .guard (fun _ both => both.1.1) (.read fun current before => ?_)
  have held := before.1.1.1
  refine .seq (M := Saved record .restoring fun service => service = current.service) ?_ ?_
  · refine (Held.save fun s held _ => .of_pending held.mixed rfl).weaken (fun s same => ?_) fun _ => id
    rw [same]
    exact ⟨held, rfl⟩
  -- From here on the service is stopped until every file has its original bytes.
  refine .seq (M := Saved record .restoring fun service => service.running = false) ?_ ?_
  · refine Saved.controlIf rfl nofun (fun _ _ _ => rfl) fun off service same => ?_
    rw [same]
    exact off
  refine .seq (Saved.unchanged fun _ _ stopped => stopped) ?_
  refine .seq (M := Saved record .restoring fun service => record.Old service ∧ service.running = false) ?_ ?_
  · refine (Saved.each
      (fun past service => (∀ file ∈ past, service.disk file.1 = file.2) ∧ service.running = false) rfl
      (fun _ => .inl rfl) ?_).weaken (fun s saved => saved.imp fun stopped => ⟨nofun, stopped⟩) ?_
    · rintro past file member service ⟨written, stopped⟩
      refine ⟨fun other listed => ?_, stopped⟩
      by_cases same : other.1 = file.1
      · have at_ := member file (mem_append_right _ mem_cons_self)
        cases inj_on_of_nodup_map record.distinct (member other listed) at_ same
        exact if_pos rfl
      · show (if other.1 = file.1 then file.2 else service.disk other.1) = other.2
        rw [if_neg same]
        rcases List.mem_append.mp listed with before | last
        · exact written other before
        · exact absurd (congrArg Prod.fst (List.mem_singleton.mp last)) same
    · exact fun s saved => saved.imp fun both => ⟨saved.held.mixed.old both.1, both.2⟩
  refine .seq (native_safe fun _ saved => saved.held) ?_
  refine .seq (M := Saved record .restoring record.Found) ?_ ?_
  · refine Saved.controlIf rfl (fun _ _ both => .inl both.1) (fun on service both => ?_) fun off service both => ?_
    · exact ⟨both.1, on.symm⟩
    · exact ⟨both.1, both.2.trans off.symm⟩
  refine .write (fun _ saved => saved.held) (fun _ saved => saved.setDesiredRunning _) ?_
  exact Saved.save fun s held found => ⟨held.mixed, fun _ => ⟨found.old, found.running⟩, nofun⟩

theorem restore_safe : Safe (Held record) (Held record) (restore host) (Saved record .rolledBack record.Found) := by
  refine .read fun s held => ?_
  obtain ⟨phase, memory⟩ := held.memory
  rw [memory]
  exact restoreTakeover_safe.weaken (fun _ same => same ▸ held) fun _ => id

/-- What a finished takeover leaves. -/
structure Takeover.Consolidated (record : Takeover) (service : Service) : Prop where
  new : record.New service
  running : service.running = record.running

variable [DecidableEq Config]

variable {merged : Config}

/-- Wherever the body of `handle` is interrupted, the takeover stays the one in
memory and in the journal; where it comes to its end, it is complete. -/
theorem activate_safe : Safe (Held record) (Saved record .prepared record.Found)
    (activate host binding record merged)
      (Saved record .complete record.Consolidated) := by
  refine .seq (Saved.unchanged fun _ _ found => found) ?_
  refine .seq (Saved.save fun s held _ => .of_pending held.mixed rfl) ?_
  refine .seq (M := Saved record .stopping fun service => service.running = false) ?_ ?_
  · exact Saved.controlIf rfl nofun (fun _ _ _ => rfl) fun off service found => found.running.trans off
  refine .seq (Saved.unchanged fun _ _ stopped => stopped) ?_
  refine .seq (Saved.save fun s held _ => .of_pending held.mixed rfl) ?_
  refine .seq (Saved.each
    (fun _ service => service.running = false) rfl (fun _ => .inr rfl) fun _ _ _ _ stopped => stopped) ?_
  -- The service is started only on files that were all replaced.
  refine .seq (M := Saved record .writing fun service => record.New service ∧ service.running = false) ?_ ?_
  · exact Saved.unchanged fun _ same stopped => ⟨same, stopped⟩
  refine .step (M := Saved record .writing fun service => record.New service ∧ service.running = false)
    (fun _ saved => saved.held) (fun s t saved ok => ?_) ?_
  · unfold dumps at ok
    split at ok
    · cases ok
    · split at ok
      · cases ok
        exact saved
      · cases ok
  refine .seq (native_safe fun _ saved => saved.held) ?_
  refine .seq (Saved.save fun s held _ => .of_pending held.mixed rfl) ?_
  refine .seq (M := Saved record .activating record.Consolidated) ?_ ?_
  · refine Saved.controlIf rfl (fun _ _ both => .inr both.1) (fun on service both => ?_) fun off service both => ?_
    · exact ⟨both.1, on.symm⟩
    · exact ⟨both.1, both.2.trans off.symm⟩
  refine .seq (Saved.unchanged fun _ _ consolidated => consolidated) ?_
  refine .write (fun _ saved => saved.held) (fun _ saved => saved.setDesiredRunning _) ?_
  exact Saved.save fun s held done => ⟨held.mixed, nofun, fun _ => ⟨done.new, done.running⟩⟩

/-- Where a request stops that was made in the state `s`. -/
structure Handled (s t : TakeoverState) : Prop where
  sound : TakeoverSound t
  origin : ∀ record phase, t.journal = some (record, phase) → t.journal = s.journal ∨ record.Found s.service

/-- What a request leaves that succeeds. -/
def Taken (s t : TakeoverState) : Prop :=
  t = s ∨ ∃ record, record.Found s.service ∧ Saved record .complete record.Consolidated t

variable {s : TakeoverState}

theorem Held.handled {t : TakeoverState} (held : Held record t) (found : record.Found s.service) : Handled s t where
  sound := held.sound
  origin other phase same := by
    obtain ⟨phase', journal⟩ := held.journal
    cases journal.symm.trans same
    exact .inr found

theorem consolidate_safe (sound : TakeoverSound s) (idle : s.pendingTakeover = false)
    (found : record.Found s.service) :
    Safe (Handled s) (· = s) (consolidate host binding record merged) (Taken s) := by
  have first : Handled s s := ⟨sound, fun _ _ _ => .inl rfl⟩
  have begun : TakeoverSound (s.begin record) :=
    ⟨sound.stands, sound.edited, fun pending => absurd (idle.symm.trans pending) nofun, sound.idle, sound.starts⟩
  have entered : Handled s ((s.begin record).enter .prepared) := ⟨begun.enter, fun _ _ _ => .inl rfl⟩
  have stored : Held record (((s.begin record).enter .prepared).store) :=
    ⟨begun.enter.store rfl (.prepared found) fun _ => ⟨.inl found.old, found.running⟩, ⟨.prepared, rfl⟩,
      ⟨.prepared, rfl⟩, rfl⟩
  have last : Held record ((((s.begin record).enter .prepared).store).setPending true) :=
    ⟨stored.sound.setPending rfl rfl rfl, ⟨.prepared, rfl⟩, ⟨.prepared, rfl⟩, rfl⟩
  refine .write (M := (· = s.begin record)) (fun _ same => same ▸ first) (fun _ same => same ▸ rfl) ?_
  refine .seq (M := Saved record .prepared record.Found) ?_ ?_
  · refine save_safe (M := (· = (s.begin record).enter .prepared))
      (N := (· = ((s.begin record).enter .prepared).store)) (fun _ same => same ▸ ⟨begun, fun _ _ _ => .inl rfl⟩)
      (fun _ same => same ▸ rfl) (fun _ same => same ▸ entered) (fun _ same => same ▸ rfl)
      (fun _ same => same ▸ stored.handled found) fun _ same => ?_
    subst same
    exact ⟨last.handled found, last, rfl, rfl, found⟩
  · refine .attempt (M := fun t => Saved record .complete record.Consolidated t) activate_safe
      (restore_safe.mono fun _ held => held.handled found) ?_
    exact .done (fun _ saved => saved.held.handled found) fun _ saved => .inr ⟨record, found, saved⟩

theorem handleTakeover_safe (sound : TakeoverSound s) (body : Json) :
    Safe (Handled s) (· = s) (handleTakeover host body) (Taken s) := by
  have first : Handled s s := ⟨sound, fun _ _ _ => .inl rfl⟩
  have here : ∀ t, t = s → Handled s t := fun _ same => same ▸ first
  unfold handleTakeover
  cases takeoverRequest body with
  | error error => exact .fail here
  | ok request =>
    refine .check first fun _ => .check first fun idle => .call here (.check first fun _ => .read fun t same => ?_)
    rw [same]
    cases host.dump s.service.binding.argv s.service.snapshot with
    | error error => exact .fail here
    | ok merged =>
      refine .seq (native_safe here) ?_
      cases host.candidate merged with
      | error error => exact .fail here
      | ok again =>
        refine .check first fun _ => .seq ((unchanged_safe here).weaken (fun _ => id) fun _ both => both.1) ?_
        unfold confirmTakeover
        split
        · exact .done here fun _ same => .inl same
        split
        · exact .fail here
        split
        · exact .done here fun _ same => .inl same
        split
        · exact .fail here
        · exact consolidate_safe sound idle ⟨rfl, rfl⟩

omit [DecidableEq Config] in
theorem recoverTakeover_safe (sound : TakeoverSound s) : Safe TakeoverSound (· = s) (recoverTakeover host) fun t =>
      t = s ∧ s.pendingTakeover = false ∨ ∃ record, Held record s ∧ Saved record .rolledBack record.Found t := by
  have here : ∀ t, t = s → TakeoverSound t := fun _ same => same ▸ sound
  refine .read fun t same => ?_
  rw [same]
  cases pending : s.pendingTakeover with
  | false => exact .done here fun _ same => .inl ⟨same, rfl⟩
  | true =>
    obtain ⟨record, held⟩ := sound.hold pending
    have safe : Safe TakeoverSound (Held record) (restore host) (Saved record .rolledBack record.Found) :=
      restore_safe.mono fun _ held => held.sound
    refine .check sound fun _ => safe.weaken ?_ ?_
    · exact fun _ same => same ▸ held
    · exact fun _ saved => .inr ⟨record, held, saved⟩

end Programs

section Completion

variable {Config : Type} {host : TakeoverHost Config} {service : Service}

theorem save_completes : Completes (fun s => R s.service) (save phase) fun s => R s.service := by
  refine .write (M := fun s => R s.service) (fun _ here => here) (.seq (M := fun s => R s.service) ?_ ?_)
  · split
    · exact .done fun _ => id
    · exact .call (.done fun _ => id)
  · exact .write (M := fun s => R s.service) (fun _ here => here) (.write (fun _ here => here) (.done fun _ => id))

theorem controlIf_completes {condition start : Bool}
    (on : condition = true → ∀ service, R service → T { service with running := start })
    (off : condition = false → ∀ service, R service → T service) :
    Completes (fun s => R s.service) (controlIf condition record start) fun s => T s.service := by
  cases condition with
  | false => exact .done fun s here => off rfl s.service here
  | true => exact .call (.write (fun s here => on rfl s.service here) (.done fun _ => id))

/-- The bytes on the disk while the originals are written back. -/
def Rewritten (record : Takeover) (service : Service) (past : List (String × Bytes)) (s : TakeoverState) : Prop :=
  s.service.binding = service.binding ∧ ∀ file ∈ record.files,
    s.service.disk file.1 = if file ∈ past then file.2 else service.disk file.1

theorem rewrite_completes {error : String} : Completes (Rewritten record service [])
      (Program.each (fun file => replaceFile error file.1 (service.disk file.1) file.2) record.files)
      (Rewritten record service record.files) := by
  refine .each (I := Rewritten record service) record.files ?_
  rintro past file rest split s ⟨binding, bytes⟩
  have member : file ∈ record.files := split ▸ mem_append_right _ mem_cons_self
  have fresh : file ∉ past := by
    have distinct := record.distinct.of_map
    rw [split, nodup_append] at distinct
    exact fun listed => distinct.2.2 file listed file mem_cons_self rfl
  have current : s.service.disk file.1 = service.disk file.1 := by
    rw [bytes file member, if_neg fresh]
  refine ⟨{ s with service := s.service.writeFile file.1 file.2 }, by
    rw [replaceFile, if_neg (not_not.mpr current)], binding, ?_⟩
  intro other listed
  show (if other.1 = file.1 then file.2 else s.service.disk other.1) = _
  by_cases same : other.1 = file.1
  · cases inj_on_of_nodup_map record.distinct listed member same
    rw [if_pos rfl, if_pos (mem_append_right _ mem_cons_self)]
  · have differs : other ≠ file := fun equal => same (congrArg Prod.fst equal)
    rw [if_neg same, bytes other listed]
    simp [differs]

/-- An uninterrupted recovery comes to its end when the host is the one of the
takeover, its files fit the size limit and the originals pass the native test. -/
theorem restoreTakeover_completes (mixed : record.Mixed service)
    (identity : service.binding.identity = record.identity)
    (fits : service.fits) (tested : host.test service.binding.argv record.files = true) :
    Completes (fun s => s.service = service) (restoreTakeover host record) fun _ => True := by
  refine .call (.check ?_ (.check ?_ (.check ?_ (.read fun current same => ?_))))
  · exact fun s same => same ▸ ⟨identity, mixed.names⟩
  · exact fun s same => same ▸ fits
  · exact fun s same => same ▸ mixed.known
  rw [same]
  have before : ∀ s, s = current → s.service = service := fun _ equal => equal ▸ same
  refine .seq ((save_completes (R := (· = service))).weaken before fun _ => id) ?_
  refine .seq (controlIf_completes (R := (· = service)) (T := (· = { service with running := false })) ?_ ?_) ?_
  · exact fun _ v equal => equal ▸ rfl
  · rintro off v rfl
    rw [← off]
  refine .seq (M := fun s => s.service = { service with running := false }) ?_ ?_
  · refine .call (.check ?_ (.check ?_ (.check ?_ (.done fun _ => id))))
    · exact fun s equal => equal ▸ ⟨rfl, rfl, rfl⟩
    · exact fun s equal => equal ▸ fits
    · exact fun s equal => equal ▸ rfl
  refine .seq (rewrite_completes.weaken (fun s equal => ?_) fun _ => id) ?_
  · rw [Rewritten, equal]
    exact ⟨rfl, fun _ _ => rfl⟩
  refine .seq (M := fun _ => True) (.check (fun s written => ?_) (.done fun _ _ => trivial)) ?_
  · have old : record.Old s.service :=
      Takeover.Mixed.old ⟨written.1 ▸ mixed.names, fun file member =>
        .inl ((written.2 file member).trans (if_pos member))⟩
        fun file member => (written.2 file member).trans (if_pos member)
    rw [old]
    exact tested
  refine .seq (controlIf_completes (R := fun _ => True) (T := fun _ => True) (fun _ _ _ => trivial) fun _ _ _ =>
    trivial) ?_
  exact .write (fun _ _ => trivial) (save_completes (R := fun _ => True))

end Completion

theorem restore_refuses {Config : Type} {host : TakeoverHost Config} (memory : s.memory = some (record, phase))
    {file : String × Bytes} (member : file ∈ record.files) (changed : s.service.disk file.1 ≠ file.2)
    (unknown : s.service.disk file.1 ≠ record.replacement file.1) : Refuses (· = s) (restore host) := by
  refine .read fun t same => ?_
  rw [same, memory]
  refine .step fun t u same ok => ⟨write_eq_ok.mp ok, ?_⟩
  refine .check fun found => .check fun _ => .check fun known => ?_
  have mixed := Takeover.mixed_of_known found.2 known
  exact absurd (mixed.either file member) (not_or.mpr ⟨changed, unknown⟩)

/-- No takeover is in progress. -/
def TakeoverState.Idle (s : TakeoverState) : Prop :=
  s.pendingTakeover = false ∧ ∀ record phase, s.journal = some (record, phase) → phase.pending = false

/-- What happens around the takeovers of an agent: requests and recoveries that
are interrupted anywhere, restarts, and other changes of the host while no
takeover is in progress. -/
inductive TakeoverRun (Config : Type) [DecidableEq Config] : TakeoverState → Prop
  | start (service : Service) (desiredRunning : Option Bool) :
      TakeoverRun Config { service := service, desiredRunning := desiredRunning }
  | handle {s : TakeoverState} (host : TakeoverHost Config) (body : Json) (effects : Nat → Effect) :
      TakeoverRun Config s → TakeoverRun Config ((handleTakeover host body).run effects s).1
  | recover {s : TakeoverState} (host : TakeoverHost Config) (effects : Nat → Effect) :
      TakeoverRun Config s → TakeoverRun Config ((recoverTakeover host).run effects s).1
  | restart {s : TakeoverState} : TakeoverRun Config s → TakeoverRun Config s.restart
  | edit {s : TakeoverState} (service : Service) (desiredRunning : Option Bool) : TakeoverRun Config s → s.Idle →
      TakeoverRun Config { s with service := service, desiredRunning := desiredRunning, edited := true }

theorem TakeoverSound.restart (sound : TakeoverSound s) : TakeoverSound s.restart where
  stands := sound.stands
  edited changed := by
    obtain ⟨_, ended⟩ := sound.edited changed
    refine ⟨?_, ended⟩
    cases journal : s.journal with
    | none => simp [TakeoverState.restart, journal]
    | some entry => simp [TakeoverState.restart, journal, ended entry.1 entry.2 journal]
  held pending := by
    cases journal : s.journal with
    | none => simp [TakeoverState.restart, journal] at pending
    | some entry => exact ⟨entry.1, entry.2, entry.2, journal, journal⟩
  idle idle record phase journal current := by
    have stands := sound.stands record phase journal current
    have same : s.journal = some (record, phase) := journal
    simp only [TakeoverState.restart, same, Option.any_some] at idle
    cases phase with
    | complete => exact ⟨.inr (stands.complete rfl).1, (stands.complete rfl).2⟩
    | rolledBack => exact ⟨.inl (stands.rolledBack rfl).1, (stands.rolledBack rfl).2⟩
    | _ => cases idle
  starts := sound.starts

theorem TakeoverRun.sound {Config : Type} [DecidableEq Config] (run : TakeoverRun Config s) : TakeoverSound s := by
  induction run with
  | start service desiredRunning => exact ⟨nofun, nofun, nofun, nofun, nofun⟩
  | handle host body effects _ ih => exact (handleTakeover_safe ih body effects _ rfl).1.sound
  | recover host effects _ ih => exact (recoverTakeover_safe ih effects _ rfl).1
  | restart _ ih => exact ih.restart
  | edit service desiredRunning _ idle ih =>
    refine ⟨nofun, fun _ => idle, ?_, nofun, ih.starts⟩
    intro pending
    exact absurd (idle.1.symm.trans pending) nofun

/-- The state on a host with other bytes on its disk. -/
def TakeoverState.withDisk (s : TakeoverState) (disk : String → Bytes) : TakeoverState :=
  { s with service := { s.service with disk := disk } }

/-- What the takeover promises of a state in which it may have been interrupted. -/
structure TakeoverAtomic (Config : Type) [DecidableEq Config] (s : TakeoverState) : Prop where
  /-- Each file has its original or its replacement; once rolled back all have
  their originals, once complete all their replacements, and the service runs as before. -/
  stands : ∀ record phase, s.journal = some (record, phase) → s.edited = false → record.Stands phase s.service
  /-- Unless a recovery is pending, the files are no mixture. -/
  whole : s.pendingTakeover = false → ∀ record phase, s.journal = some (record, phase) → s.edited = false →
    record.Whole s.service ∧ s.service.running = record.running
  /-- A recovery that comes to its end has rolled the takeover back. -/
  recovered : s.pendingTakeover = true → ∀ (host : TakeoverHost Config) effects t,
    (recoverTakeover host).run effects s = (t, none) →
    ∃ record, (∃ phase, s.journal = some (record, phase)) ∧ t.journal = some (record, .rolledBack) ∧
      record.Found t.service
  /-- A recovery comes to its end when nothing fails. -/
  completes : ∀ record phase, s.journal = some (record, phase) → s.pendingTakeover = true →
    s.service.binding.identity = record.identity → s.service.fits →
    ∀ host : TakeoverHost Config, host.enabled = true → host.test s.service.binding.argv record.files = true →
    ((recoverTakeover host).run quiet s).2 = none
  /-- The journal takes no other originals than the files and the service that a request finds. -/
  origin : ∀ (host : TakeoverHost Config) body effects record phase,
    ((handleTakeover host body).run effects s).1.journal = some (record, phase) →
    ((handleTakeover host body).run effects s).1.journal = s.journal ∨ record.Found s.service
  /-- A request that succeeds has changed nothing or has completed its takeover. -/
  taken : ∀ (host : TakeoverHost Config) body effects t, (handleTakeover host body).run effects s = (t, none) →
    t = s ∨ ∃ record, record.Found s.service ∧ t.journal = some (record, .complete) ∧ record.Consolidated t.service
  /-- The service is started on the originals or on the replacements only. -/
  starts : ∀ start ∈ s.starts, start.2 = start.1.files ∨ start.2 = start.1.replaced
  /-- A file that is neither is left alone, with all others. -/
  refuses : ∀ record phase, s.memory = some (record, phase) → ∀ disk : String → Bytes, ∀ file ∈ record.files,
    disk file.1 ≠ file.2 → disk file.1 ≠ record.replacement file.1 → ∀ (host : TakeoverHost Config) effects,
    ((restore host).run effects (s.withDisk disk)).1 = s.withDisk disk ∧
      ((restore host).run effects (s.withDisk disk)).2 ≠ none

theorem TakeoverSound.completes {Config : Type} (sound : TakeoverSound s)
    (journal : s.journal = some (record, phase))
    (pending : s.pendingTakeover = true) (identity : s.service.binding.identity = record.identity)
    (fits : s.service.fits) (host : TakeoverHost Config) (enabled : host.enabled = true)
    (tested : host.test s.service.binding.argv record.files = true) :
    ((recoverTakeover host).run quiet s).2 = none := by
  obtain ⟨other, held⟩ := sound.hold pending
  obtain ⟨phase', journal'⟩ := held.journal
  cases journal.symm.trans journal'
  obtain ⟨entered, memory⟩ := held.memory
  have ended := (restoreTakeover_completes held.mixed identity fits tested s rfl).1
  have found : Completes (· = s) (recoverTakeover host) fun _ => True := by
    refine .read fun t same => ?_
    rw [same, pending]
    refine .check (fun _ _ => enabled) (.read fun t same => ?_)
    rw [same, memory]
    exact fun u same => ⟨same ▸ ended, trivial⟩
  exact (found s rfl).1

theorem TakeoverRun.atomic {Config : Type} [DecidableEq Config] (run : TakeoverRun Config s) :
    TakeoverAtomic Config s := by
  have sound := run.sound
  refine ⟨sound.stands, sound.idle, ?_, ?_, ?_, ?_, sound.starts, ?_⟩
  · intro pending host effects t ended
    have last := (@recoverTakeover_safe _ host _ sound effects s rfl).2
    rw [ended] at last
    rcases last rfl with ⟨_, idle⟩ | ⟨record, held, saved⟩
    · exact absurd (idle.symm.trans pending) nofun
    · exact ⟨record, held.journal, saved.journal, saved.here⟩
  · intro record phase journal pending identity fits host enabled tested
    exact sound.completes journal pending identity fits host enabled tested
  · intro host body effects record phase journal
    exact (handleTakeover_safe sound body effects s rfl).1.origin record phase journal
  · intro host body effects t ended
    have last := (@handleTakeover_safe _ host _ _ sound body effects s rfl).2
    rw [ended] at last
    refine (last rfl).imp id ?_
    rintro ⟨record, found, saved⟩
    exact ⟨record, found, saved.journal, saved.here⟩
  · intro record phase memory disk file member changed unknown host effects
    exact restore_refuses (s := s.withDisk disk) memory member changed unknown effects _ rfl

section Example

def edgeBinding : Binding where
  identity := "unit"
  argv := ["/usr/bin/xray", "run", "-c", "/etc/xray/config.json", "-c", "/etc/xray/extra.json"]
  files := ["/etc/xray/config.json", "/etc/xray/extra.json"]
  target := "/etc/xray/config.json"
  distinct := by decide
  covers := by decide

/-- A core that joins its files; empty objects add nothing. -/
def joiningHost : TakeoverHost Bytes where
  enabled := true
  autoStart := true
  dump _ files := .ok ((files.map Prod.snd).filter (· ≠ emptyObject)).flatten
  test _ _ := true
  candidate merged := .ok merged
  encode merged := merged
  isObject _ := true
  digest _ _ _ := ""

/-- A running service with two files. -/
def edgeService : Service :=
  { binding := edgeBinding, disk := fun name => if name = "/etc/xray/config.json" then [1] else [2],
    running := true }

/-- The takeover of two files, cut off after the first was replaced. -/
def edgeCutOff : TakeoverState :=
  ((handleTakeover joiningHost (.obj [("confirm", .bool true)])).run
    (fun n => if n = 62 then .kept "killed" else if n = 16 then .lost "killed" else .done)
    { service := edgeService }).1

theorem edgeCutOff_atomic : TakeoverAtomic Bytes edgeCutOff.restart :=
  TakeoverRun.atomic (.restart (.handle joiningHost _ _ (.start edgeService none)))

/-- The files are a mixture there, and the recovery gives the first one its bytes back. -/
example : edgeCutOff.service.disk "/etc/xray/config.json" = [1, 2] ∧ edgeCutOff.service.running = false ∧
    ((recoverTakeover joiningHost).run quiet edgeCutOff.restart).1.service.disk "/etc/xray/config.json" = [1] := by
  decide

end Example

end OpenNode.Agent
