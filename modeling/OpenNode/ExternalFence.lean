import OpenNode.ExternalEdits

namespace OpenNode.ExternalSources

open Edits List

variable {Config : Type} {host : Host Config} {s t : Store Config} {now serial : Nat} {source after : Source Config}
variable {vault : Except ExternalSubscriptionError Unit}

section Stores

/-- The invariant of the store. -/
structure Store.Sound (host : Host Config) (s : Store Config) : Prop where
  ids : (s.sources.map Source.id).Nodup
  sources : ∀ source ∈ s.sources, source.Sound host s.serial s.fetches

/-- What a transaction keeps. -/
structure Kept (host : Host Config) (now : Nat) (s t : Store Config) : Prop where
  sound : t.Sound host
  serial : s.serial ≤ t.serial
  next : ∀ after ∈ t.sources, after.id < s.serial → ∃ source ∈ s.sources, source.Next now s.serial after

theorem Source.Next.refl (source : Source Config) : source.Next now serial source where
  id := rfl
  revision := Nat.le_refl _
  applied _ here _ _ _ := here
  origin new here _ := ⟨new, here, rfl, fun _ => rfl⟩

theorem Kept.refl (sound : s.Sound host) : Kept host now s s :=
  ⟨sound, Nat.le_refl _, fun source here _ => ⟨source, here, .refl source⟩⟩

theorem Kept.fewer (sound : s.Sound host) {sources : List (Source Config)} (fewer : sources.Sublist s.sources)
    (taken : t.sources = sources) (later : s.serial ≤ t.serial) (fetches : s.fetches <+: t.fetches) :
    Kept host now s t where
  sound := {
    ids := taken ▸ sound.ids.sublist (fewer.map Source.id)
    sources := fun source here => (sound.sources source (fewer.subset (taken ▸ here))).more later fetches }
  serial := later
  next source here _ := ⟨source, fewer.subset (taken ▸ here), .refl source⟩

theorem Kept.put (sound : s.Sound host) (here : source ∈ s.sources) (kept : after.Sound host t.serial s.fetches)
    (next : source.Next now s.serial after) (sources : t.sources = (s.put after).sources)
    (later : s.serial ≤ t.serial)
    (fetches : t.fetches = s.fetches) : Kept host now s t := by
  have changed (row : Source Config) (listed : row ∈ t.sources) : row = after ∨
      (row ∈ s.sources ∧ row.id ≠ source.id) := by
    rw [sources] at listed
    obtain ⟨old, before, ⟨_, rfl⟩ | ⟨other, rfl⟩⟩ := Rows.mem_update listed
    · exact .inl rfl
    · refine .inr ⟨before, ?_⟩
      rw [← next.id]
      simpa using other
  exact {
    sound := {
      ids := by
        have keeps : t.sources.map Source.id = s.sources.map Source.id := by
          rw [sources]
          refine List.map_map.trans (map_congr_left fun row _ => ?_)
          simp only [Function.comp_apply]
          split
          · rename_i same
            exact (beq_iff_eq.mp same).symm
          · rfl
        rw [keeps]
        exact sound.ids
      sources := fun row listed => by
        rw [fetches]
        rcases changed row listed with rfl | ⟨before, _⟩
        · exact kept
        · exact (sound.sources row before).more later (prefix_refl _) }
    serial := later
    next := fun row listed _ => by
      rcases changed row listed with rfl | ⟨before, _⟩
      · exact ⟨source, here, next⟩
      · exact ⟨row, before, .refl row⟩ }

variable {caller : Option String} {id : Nat}

theorem source_ok (found : s.source caller id = .ok source) : source ∈ s.sources ∧ source.id = id := by
  rw [Store.source] at found
  split at found
  · exact (nomatch found)
  · rename_i other listed
    obtain ⟨_, _, found⟩ := bind_eq_ok found
    cases found
    have here := List.find?_some listed
    simp only [Bool.and_eq_true, beq_iff_eq] at here
    exact ⟨mem_of_find?_eq_some listed, here.1⟩

theorem edit_kept (sound : s.Sound host) {change : Source Config → Except ExternalSubscriptionError (Source Config)}
    (keeps : ∀ source after, source.Sound host s.serial s.fetches → change source = .ok after →
      after.Sound host s.serial s.fetches ∧ source.Next now s.serial after)
    (done : s.edit caller id change = .ok t) : Kept host now s t := by
  rw [Store.edit] at done
  obtain ⟨source, found, done⟩ := bind_eq_ok done
  obtain ⟨after, changed, done⟩ := bind_eq_ok done
  cases done
  obtain ⟨here, _⟩ := source_ok found
  obtain ⟨kept, next⟩ := keeps source after (sound.sources source here) changed
  exact .put sound here kept next rfl (Nat.le_refl _) rfl

theorem create_kept (sound : s.Sound host) {owner name url userAgent : String} {enabled : Bool}
    (done : create s now vault owner name url userAgent enabled = .ok t) : Kept host now s t := by
  rw [create] at done
  obtain ⟨_, _, done⟩ := bind_eq_ok done
  obtain ⟨_, _, done⟩ := bind_eq_ok done
  obtain ⟨_, _, done⟩ := bind_eq_ok done
  obtain ⟨_, _, done⟩ := bind_eq_ok done
  cases done
  exact {
    sound := {
      ids := by
        rw [map_append, map_singleton, nodup_append]
        refine ⟨sound.ids, nodup_singleton _, fun id old id' new => ?_⟩
        obtain ⟨source, here, rfl⟩ := List.mem_map.mp old
        rw [List.mem_singleton.mp new]
        exact Nat.ne_of_lt (sound.sources source here).id
      sources := fun source here => by
        rcases List.mem_append.mp here with old | new
        · exact (sound.sources source old).more (Nat.le_succ _) (prefix_refl _)
        · obtain rfl := List.mem_singleton.mp new
          exact ⟨Nat.lt_succ_self _, ⟨nodup_nil, fun _ here => absurd here not_mem_nil, fun _ here =>
            absurd here not_mem_nil, Nat.zero_le _⟩, nodup_nil,
            fun _ here => absurd here not_mem_nil, nodup_nil, fun _ here => absurd here not_mem_nil⟩ }
    serial := Nat.le_succ _
    next := fun source here before => by
      rcases List.mem_append.mp here with old | new
      · exact ⟨source, old, .refl source⟩
      · obtain rfl := List.mem_singleton.mp new
        exact absurd before (Nat.lt_irrefl _) }

theorem delete_kept (sound : s.Sound host) {expected : Nat} (done : delete s caller id expected = .ok t) :
    Kept host now s t := by
  rw [delete] at done
  obtain ⟨source, _, done⟩ := bind_eq_ok done
  obtain ⟨_, _, done⟩ := bind_eq_ok done
  cases done
  exact .fewer sound filter_sublist rfl (Nat.le_refl _) (prefix_refl _)

theorem beginFetch_ok {expected : Nat} (done : beginFetch s vault caller id expected = .ok t) :
    ∃ source ∈ s.sources, source.id = id ∧
      t = { s with fetches := s.fetches ++ [⟨id, source.revision, caller⟩] } := by
  rw [beginFetch] at done
  obtain ⟨source, found, done⟩ := bind_eq_ok done
  obtain ⟨_, _, done⟩ := bind_eq_ok done
  obtain ⟨_, _, done⟩ := bind_eq_ok done
  obtain ⟨here, own⟩ := source_ok found
  exact ⟨source, here, own, own ▸ (Except.ok.inj done).symm⟩

theorem claim_kept (sound : s.Sound host) : Kept host now s (claim host s now) := by
  rw [claim]
  split
  · exact .refl sound
  · rename_i source found
    have here : source ∈ s.sources :=
      (List.mem_filter.mp ((mergeSort_perm _ _).mem_iff.mp (mem_of_mem_head? found))).1
    split
    · exact .refl sound
    · split
      · obtain ⟨kept, next⟩ := schedule_kept now (sound.sources source here) _
        exact .put sound here kept next rfl (Nat.le_refl _) rfl
      · obtain ⟨kept, next⟩ := schedule_kept now (sound.sources source here) _
        exact .put sound here (kept.more (Nat.le_succ _) (prefix_refl _)) next rfl (Nat.le_succ _) rfl

/-- The claim still holds the lease of its source, which has not changed since. -/
structure Current (now : Nat) (s : Store Config) (claim : RefreshClaim) (source : Source Config)
    (row : Schedule) : Prop where
  here : source ∈ s.sources
  id : source.id = claim.sourceId
  schedule : source.schedule = some row
  lease : row.leaseId = some claim.leaseId
  revision : source.revision = claim.sourceRevision
  running : ∃ time, row.leaseUntil = some time ∧ now < time

variable {claim : RefreshClaim}

theorem withCurrent_ok {next : Source Config → Schedule → Except ExternalSubscriptionError (Store Config)}
    (done : withCurrent s now claim next = .ok t) :
    t = s ∨ (∃ source ∈ s.sources, ∃ row, t = s.put { source with schedule := row }) ∨
      ∃ source row, Current now s claim source row ∧ next source row = .ok t := by
  rw [withCurrent] at done
  split at done
  · exact .inl (Except.ok.inj done).symm
  · rename_i source found
    have here := mem_of_find?_eq_some found
    have own : source.id = claim.sourceId := by simpa using List.find?_some found
    split at done
    · exact .inl (Except.ok.inj done).symm
    · rename_i row known
      split at done
      · exact .inl (Except.ok.inj done).symm
      · rename_i lease
        split at done
        · rename_i current
          simp only [Store.current, Bool.and_eq_true, beq_iff_eq] at current
          obtain ⟨time, until_, running⟩ := (Option.any_eq_true _ _).mp current.2
          exact .inr (.inr ⟨source, row, ⟨here, own, known, not_not.mp lease, current.1.2, time, until_, by
            simpa using running⟩, done⟩)
        · exact .inr (.inl ⟨source, here, _, (Except.ok.inj done).symm⟩)

theorem put_schedule_kept (sound : s.Sound host) (here : source ∈ s.sources) (row : Option Schedule) :
    Kept host now s (s.put { source with schedule := row }) := by
  obtain ⟨kept, next⟩ := schedule_kept now (sound.sources source here) row
  exact .put sound here kept next rfl (Nat.le_refl _) rfl

theorem fail_kept (sound : s.Sound host) {code : String} (done : fail s now claim code = .ok t) :
    Kept host now s t := by
  rcases withCurrent_ok done with rfl | ⟨source, here, row, rfl⟩ | ⟨source, row, current, done⟩
  · exact .refl sound
  · exact put_schedule_kept sound here row
  · cases done
    exact put_schedule_kept sound current.here _

theorem resolve_ok (done : resolve s now vault claim = .ok t) :
    t = s ∨ (∃ source ∈ s.sources, ∃ row, t = s.put { source with schedule := row }) ∨
      ∃ source row, Current now s claim source row ∧ t = { s with resolved := s.resolved ++ [claim] } := by
  rcases withCurrent_ok done with same | closed | ⟨source, row, current, done⟩
  · exact .inl same
  · exact .inr (.inl closed)
  · obtain ⟨_, _, done⟩ := bind_eq_ok done
    exact .inr (.inr ⟨source, row, current, (Except.ok.inj done).symm⟩)

theorem resolve_kept (sound : s.Sound host) (done : resolve s now vault claim = .ok t) : Kept host now s t := by
  rcases resolve_ok done with rfl | ⟨source, here, row, rfl⟩ | ⟨_, _, _, rfl⟩
  · exact .refl sound
  · exact put_schedule_kept sound here row
  · exact .fewer sound (List.Sublist.refl _) rfl (Nat.le_refl _) (prefix_refl _)

theorem refreshSelection_nodup (source : Source Config) (scope : Scope) (parsed : List (Entry Config)) :
    (source.refreshSelection host scope parsed).Nodup := by
  cases scope with
  | savedOnly => exact nodup_nil
  | all => exact nodup_dedup _

end Stores

section Merges

variable [DecidableEq Config]

variable {parsed : List (Entry Config)} {metadata : Metadata}

theorem prepare_store_kept (sound : s.Sound host) {fetch : Nat} (lists : ∀ entry ∈ parsed, entry.name ∈ host.names)
    (done : prepare host s now vault fetch parsed metadata = .ok t) : Kept host now s t := by
  rw [prepare] at done
  split at done
  · cases done
    exact .refl sound
  · rename_i began found
    obtain ⟨u, edited, done⟩ := bind_eq_ok done
    cases done
    rw [Store.edit] at edited
    obtain ⟨source, at_id, edited⟩ := bind_eq_ok edited
    obtain ⟨after, prepared, edited⟩ := bind_eq_ok edited
    cases edited
    obtain ⟨here, own⟩ := source_ok at_id
    obtain ⟨kept, next⟩ := prepare_kept (sound.sources source here) found own.symm lists prepared
    exact .put sound here kept next rfl (Nat.le_succ _) rfl

theorem newIds_unsaved (saved : source.Saved host) (lists : ∀ entry ∈ parsed, entry.name ∈ host.names)
    {scope : Scope} {id : NodeId}
    (selected : id ∈ source.refreshSelection host scope parsed) : id ∉ source.nodes.map Node.id := by
  cases scope with
  | savedOnly => exact absurd selected not_mem_nil
  | all =>
    obtain ⟨entry, offered, rfl⟩ := List.mem_map.mp (List.mem_dedup.mp selected)
    obtain ⟨id, unnamed⟩ := show_selectable host source entry (List.mem_filter.mp offered).2
    rw [show (source.candidate host entry).id = host.uuid5 source.id entry.name from id]
    exact offered_unsaved saved (lists entry (List.mem_filter.mp offered).1) unnamed

variable {claim : RefreshClaim}

theorem refresh_ok (sound : s.Sound host) (lists : ∀ entry ∈ parsed, entry.name ∈ host.names)
    (done : refresh host s now vault claim parsed metadata = .ok t) :
    (t = s ∨ ∃ source ∈ s.sources, ∃ row, t = s.put { source with schedule := row }) ∨
      ∃ source row after, Current now s claim source row ∧ t = s.put after ∧
        Merged source after (parsed.map (source.candidate host)) (source.refreshSelection host row.scope parsed) ∧
        after.merged = source.merged ++ [source.revision] ∧ after.Sound host s.serial s.fetches ∧
          source.Next now s.serial after := by
  rcases withCurrent_ok done with same | closed | ⟨source, row, current, done⟩
  · exact .inl (.inl same)
  · exact .inl (.inr closed)
  · obtain ⟨_, _, done⟩ := bind_eq_ok done
    dsimp only at done
    split at done
    · exact .inl (.inr ⟨source, current.here, _, (Except.ok.inj done).symm⟩)
    · obtain ⟨⟨nodes, counts⟩, snapshot, done⟩ := bind_eq_ok done
      have known := sound.sources source current.here
      obtain ⟨merged, saved, revisions⟩ :=
        merge_merged known (candidate_named known.saved lists) (refreshSelection_nodup source row.scope parsed)
        (fun id => newIds_unsaved known.saved lists) snapshot metadata now
      have advances (row : Option Schedule) :
          source.Advances now { (source.merge now nodes metadata now).purge now with schedule := row } :=
        .filter rfl known.previewIds rfl fun _ _ time applied recent => expired_recent time applied recent
      exact .inr ⟨source, row, _, current, (Except.ok.inj done).symm, { merged with }, rfl,
        (advances _).sound known { saved with } (Nat.le_succ _) (fun same =>
          absurd same (Nat.succ_ne_self _)) revisions,
        (advances _).next (Nat.le_succ _) _⟩

theorem refresh_kept (sound : s.Sound host) (lists : ∀ entry ∈ parsed, entry.name ∈ host.names)
    (done : refresh host s now vault claim parsed metadata = .ok t) :
    Kept host now s t := by
  rcases refresh_ok sound lists done with (rfl | ⟨source, here, row, rfl⟩) | ⟨source, row, after, current, rfl, _,
    _, kept, next⟩
  · exact .refl sound
  · exact put_schedule_kept sound here row
  · exact .put sound current.here kept next rfl (Nat.le_refl _) rfl

variable {caller : Option String} {payload : Confirm} {receipt : Receipt}

theorem confirm_store_ok {id previewId : Nat}
    (done : confirm s now vault caller id previewId payload = .ok (t, receipt)) :
    ∃ source ∈ s.sources, source.id = id ∧ ∃ after, t = s.put after ∧
      source.confirm now vault previewId payload = .ok (after, receipt) := by
  rw [confirm] at done
  obtain ⟨source, found, done⟩ := bind_eq_ok done
  obtain ⟨⟨after, read⟩, confirmed, done⟩ := bind_eq_ok done
  cases done
  obtain ⟨here, own⟩ := source_ok found
  exact ⟨source, here, own, after, rfl, confirmed⟩

theorem confirm_kept (sound : s.Sound host) {id previewId : Nat}
    (done : confirm s now vault caller id previewId payload = .ok (t, receipt)) : Kept host now s t := by
  obtain ⟨source, here, _, after, rfl, confirmed⟩ := confirm_store_ok done
  have known := sound.sources source here
  obtain ⟨preview, _, _, ⟨_, rfl, _⟩ | merged⟩ := confirm_ok known confirmed
  · exact .put sound here known (.refl _) rfl (Nat.le_refl _) rfl
  · exact .put sound here merged.sound merged.next rfl (Nat.le_refl _) rfl

theorem perform_kept (sound : s.Sound host) {action : Action Config} (lists : action.Lists host.names)
    (done : perform host s now vault action = .ok t) :
    Kept host now s t := by
  cases action with
  | create owner name url userAgent enabled => exact create_kept sound done
  | update caller id payload =>
    refine edit_kept sound (fun source after known changed => ?_) done
    obtain ⟨updated, change, changed⟩ := bind_eq_ok changed
    obtain ⟨_, _, changed⟩ := bind_eq_ok changed
    cases changed
    exact update_kept known change
  | delete caller id expected => exact delete_kept sound done
  | updateNode caller id node payload =>
    exact edit_kept sound (fun _ _ known changed => updateNode_kept known changed) done
  | updateRefresh caller id payload =>
    exact edit_kept sound (fun _ _ known changed => updateRefresh_kept known changed) done
  | beginFetch caller id expected =>
    obtain ⟨_, _, _, rfl⟩ := beginFetch_ok done
    exact .fewer sound (List.Sublist.refl _) rfl (Nat.le_refl _) (prefix_append _ _)
  | prepare fetch parsed metadata => exact prepare_store_kept sound lists done
  | cancelPreview caller id previewId =>
    exact edit_kept sound (fun _ _ known changed => cancelPreview_kept known changed) done
  | confirm caller id previewId payload =>
    obtain ⟨⟨u, receipt⟩, confirmed, done⟩ := bind_eq_ok done
    cases done
    exact confirm_kept sound confirmed
  | claim =>
    cases done
    exact claim_kept sound
  | resolve index =>
    simp only [perform] at done
    cases found : s.claims[index]? with
    | none =>
      rw [found] at done
      cases done
      exact .refl sound
    | some claim =>
      rw [found] at done
      exact resolve_kept sound done
  | refresh index parsed metadata =>
    simp only [perform] at done
    cases found : s.resolved[index]? with
    | none =>
      rw [found] at done
      cases done
      exact .refl sound
    | some claim =>
      rw [found] at done
      exact refresh_kept sound lists done
  | fail index code =>
    simp only [perform] at done
    cases found : s.claims[index]? with
    | none =>
      rw [found] at done
      cases done
      exact .refl sound
    | some claim =>
      rw [found] at done
      exact fail_kept sound done
  | owners owners =>
    cases done
    exact .fewer sound filter_sublist rfl (Nat.le_refl _) (prefix_refl _)

end Merges

end OpenNode.ExternalSources
