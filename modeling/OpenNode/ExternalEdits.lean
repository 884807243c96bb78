import OpenNode.ExternalMerges

namespace OpenNode.ExternalSources

open Edits List

variable {Config : Type} {host : Host Config} {source after : Source Config} {now serial : Nat}
variable {vault : Except ExternalSubscriptionError Unit} {fetches : List Fetch} {preview : Preview Config}

section Edits

theorem updateRefresh_kept (sound : source.Sound host serial fetches) {payload : RefreshUpdate}
    (done : source.updateRefresh now payload = .ok after) : after.Sound host serial fetches ∧
      source.Next now serial after := by
  rw [Source.updateRefresh] at done
  obtain ⟨_, _, done⟩ := bind_eq_ok done
  cases done
  exact sound.bumped rfl { sound.saved with } rfl rfl rfl

theorem move_same (source : Source Config) (url : String) : (source.move url).id = source.id ∧
    (source.move url).nodes = source.nodes ∧ (source.move url).previews = source.previews ∧
    (source.move url).revision = source.revision ∧ (source.move url).merged = source.merged := by
  unfold Source.move
  split <;> exact ⟨rfl, rfl, rfl, rfl, rfl⟩

theorem update_kept (sound : source.Sound host serial fetches) {payload : SourceUpdate}
    (done : source.update now vault payload = .ok after) : after.Sound host serial fetches ∧
      source.Next now serial after := by
  rw [Source.update] at done
  obtain ⟨_, _, done⟩ := bind_eq_ok done
  obtain ⟨_, _, done⟩ := bind_eq_ok done
  cases done
  have same : (payload.url.elim source source.move).id = source.id ∧ (payload.url.elim source source.move).nodes =
      source.nodes ∧
      (payload.url.elim source source.move).previews = source.previews ∧
      (payload.url.elim source source.move).revision = source.revision ∧
      (payload.url.elim source source.move).merged = source.merged := by
    cases payload.url with
    | none => exact ⟨rfl, rfl, rfl, rfl, rfl⟩
    | some url => exact move_same source url
  obtain ⟨id, nodes, previews, revision, merged⟩ := same
  refine sound.bumped id ⟨?_, ?_, ?_, ?_⟩ previews (congrArg (· + 1) revision) merged
  · exact (congrArg (List.map Node.upstreamName) nodes) ▸ sound.saved.names
  · show ∀ row ∈ (payload.url.elim source source.move).nodes,
      row.id = host.uuid5 (payload.url.elim source source.move).id row.upstreamName
    rw [nodes, id]
    exact sound.saved.ids
  · show ∀ row ∈ (payload.url.elim source source.move).nodes, row.upstreamName ∈ host.names
    rw [nodes]
    exact sound.saved.listed
  · show (payload.url.elim source source.move).nodes.length ≤ maxSavedNodes
    rw [nodes]
    exact sound.saved.limit

theorem updateNode_kept (sound : source.Sound host serial fetches) {id : NodeId} {payload : NodeUpdate}
    (done : source.updateNode now id payload = .ok after) : after.Sound host serial fetches ∧
      source.Next now serial after := by
  rw [Source.updateNode] at done
  obtain ⟨_, _, done⟩ := bind_eq_ok done
  obtain ⟨_, _, done⟩ := bind_eq_ok done
  cases done
  refine sound.bumped rfl ⟨?_, fun row here => ?_, fun row here => ?_, ?_⟩ rfl rfl rfl
  · simp only [Source.bump]
    rw [Rows.keys_update]
    · exact sound.saved.names
    · exact fun _ => rfl
  · obtain ⟨old, before, ⟨_, rfl⟩ | ⟨_, rfl⟩⟩ := Rows.mem_update here
    · exact sound.saved.ids old before
    · exact sound.saved.ids row before
  · obtain ⟨old, before, ⟨_, rfl⟩ | ⟨_, rfl⟩⟩ := Rows.mem_update here
    · exact sound.saved.listed old before
    · exact sound.saved.listed row before
  · simp only [Source.bump, Rows.update, length_map]
    exact sound.saved.limit

theorem schedule_kept (now : Nat) (sound : source.Sound host serial fetches) (row : Option Schedule) :
    ({ source with schedule := row } : Source Config).Sound host serial fetches ∧
      source.Next now serial { source with schedule := row } :=
  sound.stays (.same rfl sound.previewIds rfl) rfl rfl rfl

theorem cancelPreview_kept (sound : source.Sound host serial fetches) {strict : Bool} {id : Nat}
    (done : source.cancelPreview strict id = .ok after) :
    after.Sound host serial fetches ∧ source.Next now serial after := by
  rw [Source.cancelPreview] at done
  split at done
  · split at done <;> cases done
    exact sound.stays (.same rfl sound.previewIds rfl) rfl rfl rfl
  · rename_i preview found
    split at done
    · exact (nomatch done)
    · rename_i pending
      cases done
      refine sound.stays (.filter rfl sound.previewIds rfl fun old here time applied _ => ?_) rfl rfl rfl
      -- The preview that goes is pending.
      rw [bne_iff_ne]
      intro same
      have own : preview.id = id := by simpa using List.find?_some found
      obtain rfl := Rows.unique sound.previewIds here (mem_of_find?_eq_some found) (same.trans own.symm)
      simp [applied] at pending

theorem offered_unsaved (saved : source.Saved host) {name : String} (known : name ∈ host.names)
    (unnamed : ∀ row ∈ source.nodes, row.upstreamName ≠ name) :
    host.uuid5 source.id name ∉ source.nodes.map Node.id := by
  intro listed
  obtain ⟨row, here, same⟩ := List.mem_map.mp listed
  rw [saved.ids row here] at same
  exact unnamed row here (host.uuid5_injective source.id (saved.listed row here) known same)

theorem preview_ok {id : Nat} (found : source.preview now id = .ok preview) :
    preview ∈ source.previews ∧ preview.id = id := by
  rw [Source.preview] at found
  split at found
  · exact (nomatch found)
  · rename_i other listed
    have same : other = preview := by
      split at found
      · split at found
        · exact (nomatch found)
        · exact Except.ok.inj found
      · split at found
        · exact (nomatch found)
        · exact Except.ok.inj found
    subst same
    exact ⟨mem_of_find?_eq_some listed, by simpa using List.find?_some listed⟩

end Edits

section Previews

variable [DecidableEq Config]

theorem show_selectable (host : Host Config) (source : Source Config) (entry : Entry Config)
    (selectable : (source.show host entry).selectable = true) :
    (source.show host entry).nodeId = host.uuid5 source.id entry.name ∧ ∀ row ∈ source.nodes,
      row.upstreamName ≠ entry.name := by
  have offered : source.offers entry = true := selectable
  simp only [Source.offers, Bool.and_eq_true, Option.isNone_iff_eq_none] at offered
  have unnamed := offered.1.1
  refine ⟨by simp only [Source.show, Source.candidate, unnamed, Option.elim_none], fun row here => ?_⟩
  simpa using List.find?_eq_none.mp unnamed row here

theorem prepare_kept (sound : source.Sound host serial fetches) {began : Fetch} {fetch : Nat}
    (found : fetches[fetch]? = some began)
    (own : began.sourceId = source.id) {parsed : List (Entry Config)}
    (lists : ∀ entry ∈ parsed, entry.name ∈ host.names) {metadata : Metadata}
    (done : source.prepare host now vault began.revision fetch serial parsed metadata = .ok after) :
    after.Sound host (serial + 1) fetches ∧ source.Next now serial after := by
  rw [Source.prepare] at done
  obtain ⟨_, current, done⟩ := bind_eq_ok done
  obtain ⟨_, _, done⟩ := bind_eq_ok done
  obtain ⟨_, _, done⟩ := bind_eq_ok done
  cases done
  have revision : source.revision = began.revision := require_ok current
  have advances := Source.Advances.purge source now sound.previewIds
  obtain ⟨purged, next⟩ : (source.purge now).Sound host serial fetches ∧
    source.Next now serial (source.purge now) :=
    sound.stays advances rfl rfl rfl
  have later := purged.more (Nat.le_succ serial) (prefix_refl fetches)
  constructor
  · exact {
      id := later.id
      saved := { sound.saved with }
      previewIds := by
        rw [map_append, map_singleton, nodup_append]
        refine ⟨later.previewIds, nodup_singleton _, fun id old id' new => ?_⟩
        obtain ⟨preview, here, rfl⟩ := List.mem_map.mp old
        rw [List.mem_singleton.mp new]
        exact Nat.ne_of_lt (purged.previews preview here).id
      previews := fun preview here => by
        rcases List.mem_append.mp here with old | new
        · exact { later.previews preview old with }
        · obtain rfl := List.mem_singleton.mp new
          exact {
            id := Nat.lt_succ_self serial
            revision := Nat.le_refl _
            fetch := ⟨began, found, own, revision.symm⟩
            receipt := fun applied => nomatch applied
            named := fun entries metadata secret => by
              obtain ⟨rfl, _⟩ := Prod.mk.inj (Option.some.inj secret)
              exact candidate_named purged.saved lists
            unsaved := fun _ _ id selectable => by
              simp only [Preview.selectable, mem_map, mem_filter, mem_append] at selectable
              obtain ⟨shown, ⟨⟨entry, there, rfl⟩ | ⟨row, _, rfl⟩, selectable⟩, rfl⟩ := selectable
              · obtain ⟨id, unnamed⟩ := show_selectable host (source.purge now) entry selectable
                rw [id]
                exact offered_unsaved purged.saved (lists entry there) unnamed
              · exact (nomatch selectable) }
      merged := sound.merged }
  · exact { next with
      applied := fun old here time applied recent => mem_append_left _ (next.applied old here time applied recent)
      origin := fun new here before => by
        rcases List.mem_append.mp here with old | added
        · exact next.origin new old before
        · obtain rfl := List.mem_singleton.mp added
          exact absurd before (Nat.lt_irrefl serial) }

end Previews

section Merges

variable [DecidableEq Config] {entries : List (Candidate Config)}

theorem merge_merged (sound : source.Sound host serial fetches) (named : Named host source.id entries)
    {selected : List NodeId}
    (distinct : selected.Nodup) (new : ∀ id ∈ selected, id ∉ source.nodes.map Node.id) {nodes : List (Node Config)}
    {counts : Counts}
    (done : source.applySnapshot now entries selected = .ok (nodes, counts)) (metadata : Metadata) (synced : Nat) :
    Merged source (source.merge now nodes metadata synced) entries selected ∧
      (source.merge now nodes metadata synced).Saved host ∧
      (source.merge now nodes metadata synced).merged.Nodup ∧
      ∀ revision ∈ (source.merge now nodes metadata synced).merged,
        revision < (source.merge now nodes metadata synced).revision := by
  obtain ⟨kept, present, added, limit, names, ids⟩ := applySnapshot_saved sound.saved named distinct new done
  refine ⟨⟨rfl, rfl, kept, present, added, limit, names⟩,
    ⟨names, fun row here => (ids row here).1, fun row here => (ids row here).2, limit⟩, ?_, fun revision here => ?_⟩
  · refine List.nodup_append.mpr ⟨sound.merged.1, nodup_singleton _, fun old here last new => ?_⟩
    rw [List.mem_singleton.mp new]
    exact Nat.ne_of_lt (sound.merged.2 old here)
  · rcases List.mem_append.mp here with old | new
    · exact Nat.lt_succ_of_lt (sound.merged.2 revision old)
    · rw [List.mem_singleton.mp new]
      exact Nat.lt_succ_self source.revision

/-- A confirmation that merges. -/
structure Confirmed (host : Host Config) (now serial : Nat) (fetches : List Fetch) (source after : Source Config)
    (preview : Preview Config)
    (payload : Confirm) (receipt : Receipt) : Prop where
  pending : preview.appliedAt = none
  revision : preview.sourceRevision = source.revision
  merged : ∃ entries metadata, preview.secret = some (entries, metadata) ∧
    Merged source after entries payload.selected
  applied : ∃ kept ∈ after.previews, kept.id = preview.id ∧ kept.appliedAt = some now ∧
    kept.receipt = some receipt ∧
    kept.selectionDigest = some payload.digest
  revisions : after.merged = source.merged ++ [source.revision]
  receipt : receipt.revision = after.revision
  sound : after.Sound host serial fetches
  next : source.Next now serial after

variable {payload : Confirm} {receipt : Receipt}

theorem confirmNew_ok (sound : source.Sound host serial fetches) (here : preview ∈ source.previews)
    (pending : preview.appliedAt = none)
    (done : source.confirmNew now vault preview payload = .ok (after, receipt)) :
    Confirmed host now serial fetches source after preview payload receipt := by
  rw [Source.confirmNew] at done
  obtain ⟨_, _, done⟩ := bind_eq_ok done
  obtain ⟨_, current, done⟩ := bind_eq_ok done
  obtain ⟨_, offered, done⟩ := bind_eq_ok done
  obtain ⟨_, _, done⟩ := bind_eq_ok done
  have revision := require_ok current
  have known := sound.previews preview here
  split at done
  · exact (nomatch done)
  · rename_i entries metadata secret
    obtain ⟨⟨nodes, counts⟩, snapshot, done⟩ := bind_eq_ok done
    cases done
    obtain ⟨merged, saved, revisions⟩ := merge_merged sound (known.named entries metadata secret) (nodup_dedup _)
      (fun id chosen => known.unsaved pending revision id (require_ok offered id chosen)) snapshot metadata
        preview.createdAt
    have selected : (preview.id == preview.id) = true := by simp
    have advances : source.Advances now { source.merge now nodes metadata preview.createdAt with
        previews := Rows.update (fun row => row.id == preview.id) (fun row => { row with
          appliedAt := some now
          selectionDigest := some payload.digest
          receipt := some {
            sourceId := source.id
            previewId := preview.id
            revision := (source.merge now nodes metadata preview.createdAt).revision
            counts := counts
            appliedAt := now }
          secret := none }) (source.merge now nodes metadata preview.createdAt).previews } := {
      id := rfl
      previewIds := by
        rw [Rows.keys_update]
        · exact sound.previewIds
        · exact fun _ => rfl
      previews := fun new listed => by
        obtain ⟨old, before, ⟨chosen, rfl⟩ | ⟨_, rfl⟩⟩ := Rows.mem_update listed
        · obtain rfl := Rows.unique sound.previewIds before here (beq_iff_eq.mp chosen)
          exact ⟨old, here, .inr ⟨rfl, rfl, rfl, rfl, ⟨_, rfl, rfl⟩, pending⟩⟩
        · exact ⟨new, before, .inl rfl⟩
      applied := fun old before time applied _ => by
        refine Rows.update_other before ?_
        rw [beq_eq_false_iff_ne]
        intro same
        obtain rfl := Rows.unique sound.previewIds before here same
        exact (nomatch pending.symm.trans applied) }
    exact {
      pending := pending
      revision := revision
      merged := ⟨entries, metadata, secret, { merged with }⟩
      applied := ⟨_, Rows.update_selected here selected, rfl, rfl, rfl, rfl⟩
      revisions := rfl
      receipt := rfl
      sound := advances.sound sound { saved with } (Nat.le_succ _) (fun same =>
        absurd same (Nat.succ_ne_self _)) revisions
      next := advances.next (Nat.le_succ _) serial }

theorem confirm_ok (sound : source.Sound host serial fetches) {previewId : Nat}
    (done : source.confirm now vault previewId payload = .ok (after, receipt)) :
    ∃ preview ∈ source.previews, preview.id = previewId ∧
      ((preview.appliedAt.isSome = true ∧ after = source ∧ preview.receipt = some receipt ∧
        preview.selectionDigest = some payload.digest) ∨
        Confirmed host now serial fetches source after preview payload receipt) := by
  rw [Source.confirm] at done
  obtain ⟨preview, found, done⟩ := bind_eq_ok done
  obtain ⟨here, own⟩ := preview_ok found
  refine ⟨preview, here, own, ?_⟩
  split at done
  · rename_i applied
    split at done
    · exact (nomatch done)
    · rename_i same
      split at done
      · rename_i kept known
        cases done
        exact .inl ⟨applied, rfl, known, not_not.mp same⟩
      · exact (nomatch done)
  · rename_i pending
    exact .inr (confirmNew_ok sound here (by simpa using pending) done)

end Merges

end OpenNode.ExternalSources
