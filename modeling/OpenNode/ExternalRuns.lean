import OpenNode.ExternalFence

namespace OpenNode.ExternalSources

open Edits

variable {Config : Type} [DecidableEq Config] {host : Host Config} {s t : Store Config} {now : Nat}
  {source after : Source Config}
variable {vault : Except ExternalSubscriptionError Unit}

section Runs

omit [DecidableEq Config] in
theorem Source.Next.trans {first second : Source Config} {serial later : Nat} {soon : Nat}
    (next : first.Next soon serial second)
    (more : second.Next now later after) (times : soon ≤ now) (serials : serial ≤ later) :
    first.Next now serial after where
  id := more.id.trans next.id
  revision := Nat.le_trans next.revision more.revision
  applied old here time applied recent :=
    more.applied old (next.applied old here time applied (Nat.le_trans times recent)) time applied recent
  origin new here before := by
    obtain ⟨middle, listed, same, kept⟩ := more.origin new here (Nat.lt_of_lt_of_le before serials)
    obtain ⟨old, first, same', kept'⟩ := next.origin middle listed (same ▸ before)
    refine ⟨old, first, same.trans same', fun applied => ?_⟩
    have still := kept' applied
    exact (kept (still ▸ applied)).trans still

theorem step_kept (sound : s.Sound host) {event : Event Config} (lists : event.action.Lists host.names) :
    Kept host (s.clock + event.elapsed) s (s.step host event) := by
  simp only [Store.step]
  split
  · rename_i t done
    have kept : Kept host (s.clock + event.elapsed) s t := perform_kept sound lists done
    exact ⟨⟨kept.sound.ids, kept.sound.sources⟩, kept.serial, kept.next⟩
  · exact ⟨⟨sound.ids, sound.sources⟩, Nat.le_refl _, fun source here _ => ⟨source, here, .refl source⟩⟩

omit [DecidableEq Config] in
theorem step_clock [DecidableEq Config] (host : Host Config) (s : Store Config) (event : Event Config) :
    (s.step host event).clock = s.clock + event.elapsed := by
  simp only [Store.step]
  split <;> rfl

theorem run_kept (sound : s.Sound host) {events : List (Event Config)}
    (lists : ∀ event ∈ events, event.action.Lists host.names) :
    s.clock ≤ (s.run host events).clock ∧ Kept host (s.run host events).clock s (s.run host events) := by
  induction events generalizing s with
  | nil => exact ⟨Nat.le_refl _, .refl sound⟩
  | cons event events ih =>
    have first := step_kept sound (lists event List.mem_cons_self)
    obtain ⟨later, rest⟩ := ih first.sound fun event here => lists event (List.mem_cons_of_mem _ here)
    rw [step_clock] at later
    refine ⟨Nat.le_trans (Nat.le_add_right _ _) later, rest.sound, Nat.le_trans first.serial rest.serial,
      fun after here before => ?_⟩
    obtain ⟨middle, listed, more⟩ := rest.next after here (Nat.lt_of_lt_of_le before first.serial)
    obtain ⟨source, there, next⟩ := first.next middle listed (more.id ▸ before)
    exact ⟨source, there, next.trans more later first.serial⟩

/-- A database without external sources. -/
def start (owners : List Owner) : Store Config :=
  { owners := owners }

omit [DecidableEq Config] in
theorem start_sound (owners : List Owner) : (start owners : Store Config).Sound host where
  ids := List.nodup_nil
  sources _ here := absurd here List.not_mem_nil

/-- What holds of the sources and their previews in every run. -/
theorem run_sources (host : Host Config) (owners : List Owner) (events : List (Event Config))
    (lists : ∀ event ∈ events, event.action.Lists host.names) : ((start owners).run host events).Sound host :=
  (run_kept (start_sound owners) lists).2.sound

end Runs

section Receipts

omit [DecidableEq Config] in
theorem put_self (sound : s.Sound host) (here : source ∈ s.sources) : s.put source = s := by
  have same : Rows.update (fun row => row.id == source.id) (fun _ => source) s.sources = s.sources :=
    Rows.update_same fun row there selected => (Rows.unique sound.ids there here (beq_iff_eq.mp selected)).symm
  rw [Store.put, same]

variable {caller : Option String} {previewId : Nat} {payload : Confirm} {receipt : Receipt}

theorem confirm_receipt (sound : s.Sound host) {id : Nat}
    (done : confirm s now vault caller id previewId payload = .ok (t, receipt)) :
    ∃ after ∈ t.sources, after.id = id ∧ id < s.serial ∧ ∃ kept ∈ after.previews, kept.id = previewId ∧
      kept.appliedAt = some receipt.appliedAt ∧ kept.receipt = some receipt ∧
        kept.selectionDigest = some payload.digest := by
  obtain ⟨source, here, own, after, rfl, confirmed⟩ := confirm_store_ok done
  have known := sound.sources source here
  have listed (same : after.id = source.id) : after ∈ (s.put after).sources :=
    Rows.update_selected here (beq_iff_eq.mpr same.symm)
  obtain ⟨preview, there, rfl, ⟨applied, rfl, read, digest⟩ | merged⟩ := confirm_ok known confirmed
  · obtain ⟨kept, is, time⟩ := (known.previews preview there).receipt applied
    cases is.symm.trans read
    exact ⟨after, listed rfl, own, own ▸ known.id, preview, there, rfl, time, read, digest⟩
  · obtain ⟨kept, at_kept, same, time, read, digest⟩ := merged.applied
    obtain ⟨kept', is, time'⟩ := (merged.sound.previews kept at_kept).receipt (by simp [time])
    cases is.symm.trans read
    exact ⟨after, listed merged.next.id, merged.next.id.trans own, own ▸ known.id, kept, at_kept, same, time',
      read, digest⟩

variable {preview : Preview Config}

theorem confirm_again (sound : s.Sound host) {id : Nat} {selection : Selection}
    (only : ∀ source ∈ s.sources, source.id = id → ∀ other ∈ source.previews, other.id = previewId →
      other = preview)
    (applied : preview.appliedAt = some receipt.appliedAt) (read : preview.receipt = some receipt)
    (digest : preview.selectionDigest = some selection) {receipt' : Receipt}
    (done : confirm s now vault caller id previewId payload = .ok (t, receipt')) :
    t = s ∧ receipt' = receipt ∧ payload.digest = selection := by
  obtain ⟨source, here, own, after, rfl, confirmed⟩ := confirm_store_ok done
  obtain ⟨other, there, same, ⟨_, rfl, read', digest'⟩ | merged⟩ := confirm_ok (sound.sources source here) confirmed
  · obtain rfl := only after here own other there same
    exact ⟨put_self sound here, Option.some.inj (read'.symm.trans read),
      Option.some.inj (digest'.symm.trans digest)⟩
  · obtain rfl := only source here own other there same
    exact (nomatch merged.pending.symm.trans applied)

theorem confirm_kept_receipt (sound : s.Sound host) {id : Nat} (found : s.source caller id = .ok source)
    (here : preview ∈ source.previews) (own : preview.id = previewId)
    (applied : preview.appliedAt = some receipt.appliedAt) (read : preview.receipt = some receipt)
    (digest : preview.selectionDigest = some payload.digest) (recent : now < receipt.appliedAt + receiptLifetime) :
    confirm s now vault caller id previewId payload = .ok (s, receipt) := by
  obtain ⟨listed, _⟩ := source_ok found
  have known := sound.sources source listed
  have first : source.previews.find? (fun other => other.id == previewId) = some preview := by
    cases search : source.previews.find? fun other => other.id == previewId with
    | none =>
      have := List.find?_eq_none.mp search preview here
      simp [own] at this
    | some other =>
      have same : other.id = previewId := by simpa using List.find?_some search
      rw [Rows.unique known.previewIds (List.mem_of_find?_eq_some search) here (same.trans own.symm)]
  have at_preview : source.preview now previewId = .ok preview := by
    simp only [Source.preview, first, applied, if_neg (Nat.not_le.mpr recent)]
  have confirmed : source.confirm now vault previewId payload = .ok (source, receipt) := by
    rw [Source.confirm, bind_ok at_preview, if_pos (by simp [applied]), if_neg (by simp [digest]), read]
  rw [confirm, bind_ok found, bind_ok confirmed]
  show Except.ok (s.put source, receipt) = _
  rw [put_self sound listed]

end Receipts

section Fence

/-- A confirmation that merges the list of its preview, which was fetched at the
revision that the source still has. -/
def ConfirmMerges (s t : Store Config) (id previewId : Nat) (payload : Confirm) (receipt : Receipt) : Prop :=
  ∃ source ∈ s.sources, source.id = id ∧ ∃ preview ∈ source.previews, preview.id = previewId ∧
    preview.appliedAt = none ∧
    (∃ fetch, s.fetches[preview.fetch]? = some fetch ∧ fetch.sourceId = id ∧ fetch.revision = source.revision) ∧
    ∃ entries metadata after, preview.secret = some (entries, metadata) ∧
      Merged source after entries payload.selected ∧
      after.merged = source.merged ++ [source.revision] ∧ receipt.revision = after.revision ∧ t = s.put after

/-- External merges are fenced in every run. -/
theorem Store.merges_fenced (host : Host Config) (owners : List Owner) (events : List (Event Config))
    (lists : ∀ event ∈ events, event.action.Lists host.names) :
    let s := (start owners : Store Config).run host events
    (∀ source ∈ s.sources, source.merged.Nodup ∧ ∀ revision ∈ source.merged, revision < source.revision) ∧
      (∀ now vault caller id expected t, beginFetch s vault caller id expected = .ok t → s.clock ≤ now →
        ∃ source ∈ s.sources, source.id = id ∧
          t = { s with fetches := s.fetches ++ [⟨id, source.revision, caller⟩] }) ∧
      (∀ now vault claim t, s.clock ≤ now → resolve s now vault claim = .ok t →
        t = s ∨ (∃ source ∈ s.sources, ∃ row, t = s.put { source with schedule := row }) ∨
          ∃ source row, Current now s claim source row ∧ t = { s with resolved := s.resolved ++ [claim] }) ∧
      (∀ now vault claim parsed metadata t, s.clock ≤ now → (∀ entry ∈ parsed, entry.name ∈ host.names) →
        refresh host s now vault claim parsed metadata = .ok t →
        (t = s ∨ ∃ source ∈ s.sources, ∃ row, t = s.put { source with schedule := row }) ∨
          ∃ source row after, Current now s claim source row ∧ t = s.put after ∧
            Merged source after (parsed.map (source.candidate host))
              (source.refreshSelection host row.scope parsed) ∧
            after.merged = source.merged ++ [source.revision]) ∧
      ∀ now vault caller id previewId payload t receipt, s.clock ≤ now →
        confirm s now vault caller id previewId payload = .ok (t, receipt) →
        (t = s ∨ ConfirmMerges s t id previewId payload receipt) ∧
          ∀ later, (∀ event ∈ later, event.action.Lists host.names) →
            let u := ({ t with clock := now } : Store Config).run host later
            ∀ again vault' caller' payload', u.clock ≤ again →
              (∀ v receipt', confirm u again vault' caller' id previewId payload' = .ok (v, receipt') →
                v = u ∧ receipt' = receipt ∧ payload'.digest = payload.digest) ∧
              ∀ source, u.source caller' id = .ok source → payload'.digest = payload.digest →
                again < receipt.appliedAt + receiptLifetime →
                confirm u again vault' caller' id previewId payload' = .ok (u, receipt) := by
  intro s
  have sound : s.Sound host := (run_kept (start_sound owners) lists).2.sound
  refine ⟨fun source here => (sound.sources source here).merged, ?_, ?_, ?_, ?_⟩
  · intro _ _ _ _ _ _ done _
    exact beginFetch_ok done
  · intro _ _ _ _ _ done
    exact resolve_ok done
  · intro now vault claim parsed metadata t _ listed done
    rcases refresh_ok sound listed done with kept | ⟨source, row, after, current, same, merged, revisions, _⟩
    · exact .inl kept
    · exact .inr ⟨source, row, after, current, same, merged, revisions⟩
  · intro now vault caller id previewId payload t receipt _ done
    constructor
    · obtain ⟨source, here, own, after, rfl, confirmed⟩ := confirm_store_ok done
      have known := sound.sources source here
      obtain ⟨preview, there, same, ⟨_, rfl, _⟩ | merged⟩ := confirm_ok known confirmed
      · exact .inl (put_self sound here)
      · obtain ⟨entries, metadata, secret, list⟩ := merged.merged
        obtain ⟨fetch, began, from_source, revision⟩ := (known.previews preview there).fetch
        exact .inr ⟨source, here, own, preview, there, same, merged.pending,
          ⟨fetch, began, from_source.trans own, revision.trans merged.revision⟩, entries, metadata, after,
            secret, list,
            merged.revisions, merged.receipt, rfl⟩
    · intro later lists' u again vault' caller' payload' time
      -- The receipt stays with its preview as long as it is kept.
      have kept : Kept host now s t := confirm_kept sound done
      have first : ({ t with clock := now } : Store Config).Sound host := ⟨kept.sound.ids, kept.sound.sources⟩
      obtain ⟨after, listed, own, before, preview, there, same, applied, read, digest⟩ := confirm_receipt sound done
      obtain ⟨_, rest⟩ := run_kept first lists'
      have from_after (source : Source Config) (here : source ∈ u.sources) (id' : source.id =
          id) : after.Next u.clock t.serial source := by
        obtain ⟨old, member, next⟩ := rest.next source here (id' ▸ Nat.lt_of_lt_of_le before kept.serial)
        rwa [Rows.unique first.ids member listed (next.id.symm.trans (id'.trans own.symm))] at next
      have known := kept.sound.sources after listed
      refine ⟨fun v receipt' done' => ?_, fun source found selection recent => ?_⟩
      · refine confirm_again rest.sound (fun source here id' other listed' same' => ?_) applied read digest done'
        obtain ⟨old, member, id'', unchanged⟩ := (from_after source here id').origin other listed'
          (by rw [same', ← same]; exact (known.previews preview there).id)
        obtain rfl := Rows.unique known.previewIds member there (id''.symm.trans (same'.trans same.symm))
        exact unchanged (by simp [applied])
      · obtain ⟨here, id'⟩ := source_ok found
        refine confirm_kept_receipt rest.sound found ?_ same applied read (selection ▸ digest) recent
        exact (from_after source here id').applied preview there _ applied (Nat.le_trans time (Nat.le_of_lt recent))

/-- Nodes go by their names. -/
def namedHost : Host Unit where
  uuid5 _ name := name
  names := {"node"}
  uuid5_injective _ := Set.injOn_singleton _ _
  changedFields _ _ := []
  order := id

/-- A preview of a list with one node. -/
def previewing : List (Event Unit) :=
  [{ elapsed := 0, action := .create "owner" "source" "https://example.org" "" true },
    { elapsed := second, action := .beginFetch none 0 1 },
    { elapsed := second, action := .prepare 0 [⟨"node", "ss", some (), none⟩] [] }]

def previewed : Store Unit :=
  (start [⟨"owner", true, none⟩]).run namedHost previewing

theorem previewing_lists : ∀ event ∈ previewing, event.action.Lists namedHost.names := by
  simp [previewing, Action.Lists, namedHost]

theorem previewed_sources : previewed.Sound namedHost :=
  run_sources namedHost _ previewing previewing_lists

def confirmNode : Confirm where
  expectedRevision := 1
  selectedNodeIds := ["node"]
  acceptChanges := true

theorem ok_of_any {ε α : Type} {result : Except ε α} {p : α → Bool} (holds : result.toOption.any p = true) :
    ∃ a, result = .ok a ∧ p a = true := by
  cases result with
  | error cause => cases holds
  | ok a => exact ⟨a, rfl, holds⟩

/-- The confirmation of the preview merges its list, or changes nothing. -/
theorem previewed_fenced : ∃ t receipt,
    confirm previewed (3 * second) (.ok ()) none 0 1 confirmNode = .ok (t, receipt) ∧
      (t = previewed ∨ ConfirmMerges previewed t 0 1 confirmNode receipt) := by
  have answered :
      (confirm previewed (3 * second) (.ok ()) none 0 1 confirmNode).toOption.any (fun _ => true) = true := by
    decide +kernel
  obtain ⟨⟨t, receipt⟩, done, -⟩ := ok_of_any answered
  have fenced := Store.merges_fenced namedHost [⟨"owner", true, none⟩] previewing previewing_lists
  exact ⟨t, receipt, done, (fenced.2.2.2.2 (3 * second) (.ok ()) none 0 1 confirmNode t receipt (by decide) done).1⟩

/-- A confirmation is not answered any more eight days later. -/
theorem previewed_forgotten : ¬ ∀ now t receipt, confirm previewed now (.ok ()) none 0 1 confirmNode =
    .ok (t, receipt) →
    ∀ again, now ≤ again → confirm t again (.ok ()) none 0 1 confirmNode = .ok (t, receipt) := by
  intro kept
  have forgotten : (confirm previewed (3 * second) (.ok ()) none 0 1 confirmNode).toOption.any (fun result =>
      (confirm result.1 (8 * 24 * 60 * minute) (.ok ()) none 0 1 confirmNode).toOption.isNone) = true := by
    decide +kernel
  obtain ⟨⟨t, receipt⟩, done, refused⟩ := ok_of_any forgotten
  have again := kept (3 * second) t receipt done (8 * 24 * 60 * minute) (by decide)
  rw [again] at refused
  exact (nomatch refused)

end Fence

end OpenNode.ExternalSources
