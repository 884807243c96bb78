import OpenNode.ExternalSources

namespace OpenNode.ExternalSources

open Edits List

variable {Config : Type} {host : Host Config} {source after : Source Config} {now : Nat}
variable {vault : Except ExternalSubscriptionError Unit} {entries : List (Candidate Config)}

section Nodes

/-- What no merge changes of a saved node. -/
def Node.identity (row : Node Config) : NodeId × String × Option String × Bool :=
  (row.id, row.upstreamName, row.displayName, row.enabled)

theorem merge_identity (now : Nat) (entry : Option (Candidate Config)) (row : Node Config) :
    (row.merge now entry).identity = row.identity := by
  cases entry <;> rfl

theorem merge_present (now : Nat) (entry : Option (Candidate Config)) (row : Node Config) :
    (row.merge now entry).present = entry.isSome := by
  cases entry <;> rfl

theorem incoming_isSome (entries : List (Candidate Config)) (id : NodeId) :
    (incoming entries id).isSome = true ↔ id ∈ entries.map Candidate.id := by
  rw [incoming, List.find?_isSome, mem_map]
  constructor
  · rintro ⟨entry, here, same⟩
    exact ⟨entry, List.mem_reverse.mp here, beq_iff_eq.mp same⟩
  · rintro ⟨entry, here, same⟩
    exact ⟨entry, List.mem_reverse.mpr here, beq_iff_eq.mpr same⟩

theorem incoming_some {id : NodeId} {entry : Candidate Config} (found : incoming entries id = some entry) :
    entry ∈ entries ∧ entry.id = id :=
  ⟨List.mem_reverse.mp (mem_of_find?_eq_some found), by simpa using List.find?_some found⟩

theorem addNodes_ok {ids : List NodeId} {new : List (Node Config)} (done : addNodes now entries ids = .ok new) :
    new.map Node.id = ids ∧ ∀ row ∈ new, row.present = true ∧ ∃ entry ∈ entries, entry.id = row.id ∧
      entry.name = row.upstreamName := by
  induction ids generalizing new with
  | nil =>
    cases done
    exact ⟨rfl, fun _ here => absurd here not_mem_nil⟩
  | cons id ids ih =>
    rw [addNodes] at done
    split at done
    · exact (nomatch done)
    · rename_i entry found
      split at done
      · exact (nomatch done)
      · obtain ⟨rest, more, done⟩ := bind_eq_ok done
        cases done
        obtain ⟨listed, all⟩ := ih more
        refine ⟨by rw [map_cons, listed], fun row here => ?_⟩
        rcases List.mem_cons.mp here with rfl | later
        · exact ⟨rfl, entry, (incoming_some found).1, (incoming_some found).2, rfl⟩
        · exact all row later

/-- The identifiers of the saved nodes, and their names, belong together. -/
structure Source.Saved (host : Host Config) (source : Source Config) : Prop where
  names : (source.nodes.map Node.upstreamName).Nodup
  ids : ∀ row ∈ source.nodes, row.id = host.uuid5 source.id row.upstreamName
  listed : ∀ row ∈ source.nodes, row.upstreamName ∈ host.names
  limit : source.nodes.length ≤ maxSavedNodes

/-- A list whose identifiers were made for a source. -/
def Named (host : Host Config) (id : Nat) (entries : List (Candidate Config)) : Prop :=
  ∀ entry ∈ entries, entry.id = host.uuid5 id entry.name ∧ entry.name ∈ host.names

theorem candidate_named (saved : source.Saved host) {parsed : List (Entry Config)}
    (lists : ∀ entry ∈ parsed, entry.name ∈ host.names) :
    Named host source.id (parsed.map (source.candidate host)) := by
  intro entry here
  obtain ⟨parsed, there, rfl⟩ := List.mem_map.mp here
  refine ⟨?_, lists parsed there⟩
  simp only [Source.candidate]
  cases found : source.nodeNamed parsed.name with
  | none => rfl
  | some row =>
    have same : row.upstreamName = parsed.name := by simpa using List.find?_some found
    rw [Option.elim_some, saved.ids row (mem_of_find?_eq_some found), same]

/-- A merge of a list into a source. -/
structure Merged (before after : Source Config) (entries : List (Candidate Config))
    (selected : List NodeId) : Prop where
  id : after.id = before.id
  revision : after.revision = before.revision + 1
  saved : before.nodes.map Node.identity <+: after.nodes.map Node.identity
  present : ∀ row ∈ after.nodes, row.present = true ↔ row.upstreamName ∈ entries.map Candidate.name
  added : ∀ row ∈ after.nodes.drop before.nodes.length, row.id ∈ selected
  limit : after.nodes.length ≤ maxSavedNodes
  names : (after.nodes.map Node.upstreamName).Nodup

variable [DecidableEq Config]

theorem applySnapshot_saved {nodes : List (Node Config)} {counts : Counts} {selected : List NodeId}
    (saved : source.Saved host)
    (named : Named host source.id entries) (distinct : selected.Nodup)
    (new : ∀ id ∈ selected, id ∉ source.nodes.map Node.id)
    (done : source.applySnapshot now entries selected = .ok (nodes, counts)) :
    source.nodes.map Node.identity <+: nodes.map Node.identity ∧
      (∀ row ∈ nodes, row.present = true ↔ row.upstreamName ∈ entries.map Candidate.name) ∧
      (∀ row ∈ nodes.drop source.nodes.length, row.id ∈ selected) ∧ nodes.length ≤ maxSavedNodes ∧
      (nodes.map Node.upstreamName).Nodup ∧
      ∀ row ∈ nodes, row.id = host.uuid5 source.id row.upstreamName ∧ row.upstreamName ∈ host.names := by
  rw [Source.applySnapshot] at done
  obtain ⟨_, room, done⟩ := bind_eq_ok done
  obtain ⟨fresh, added, done⟩ := bind_eq_ok done
  obtain ⟨rfl, _⟩ := Prod.mk.inj (Except.ok.inj done)
  have room := require_ok room
  obtain ⟨ids, all⟩ := addNodes_ok added
  have merged_id (row : Node Config) : (row.merge now (incoming entries row.id)).id = row.id :=
    congrArg Prod.fst (merge_identity now _ row)
  have merged_name (row : Node Config) : (row.merge now (incoming entries row.id)).upstreamName =
      row.upstreamName :=
    congrArg (fun identity => identity.2.1) (merge_identity now _ row)
  have count : fresh.length = selected.length := by
    rw [← length_map (f := Node.id), ids, length_mergeSort]
  have chosen (row : Node Config) (here : row ∈ fresh) : row.id ∈ selected := by
    have listed := mem_map_of_mem (f := Node.id) here
    rw [ids] at listed
    exact (mergeSort_perm _ _).mem_iff.mp listed
  have own (row : Node Config) (here : row ∈ fresh) :
      row.id = host.uuid5 source.id row.upstreamName ∧ row.upstreamName ∈ host.names := by
    obtain ⟨_, entry, listed, id, name⟩ := all row here
    rw [← id, ← name]
    exact named entry listed
  have kept (row : Node Config) (here : row ∈ source.nodes) :
      (incoming entries row.id).isSome = true ↔ row.upstreamName ∈ entries.map Candidate.name := by
    rw [incoming_isSome, saved.ids row here]
    constructor <;> intro listed
    · obtain ⟨entry, there, same⟩ := List.mem_map.mp listed
      rw [(named entry there).1] at same
      exact List.mem_map.mpr ⟨entry, there,
        host.uuid5_injective source.id (named entry there).2 (saved.listed row here) same⟩
    · obtain ⟨entry, there, same⟩ := List.mem_map.mp listed
      exact List.mem_map.mpr ⟨entry, there, by rw [(named entry there).1, same]⟩
  refine ⟨?_, fun row here => ?_, fun row here => ?_, ?_, ?_, fun row here => ?_⟩
  · rw [map_append, map_map]
    refine ⟨fresh.map Node.identity, ?_⟩
    rw [map_congr_left fun row _ => (merge_identity now (incoming entries row.id) row).symm]
    rfl
  · rcases List.mem_append.mp here with old | new
    · obtain ⟨row, before, rfl⟩ := List.mem_map.mp old
      rw [merge_present, merged_name, kept row before]
    · obtain ⟨present, entry, listed, _, name⟩ := all row new
      exact iff_of_true present (List.mem_map.mpr ⟨entry, listed, name⟩)
  · rw [drop_left' (by rw [length_map])] at here
    exact chosen row here
  · rw [length_append, length_map, count]
    exact room
  · have old_names : source.nodes.map (Node.upstreamName ∘ fun row => row.merge now (incoming entries row.id)) =
        source.nodes.map Node.upstreamName := map_congr_left fun row _ => merged_name row
    rw [map_append, map_map, old_names, nodup_append]
    refine ⟨saved.names, ?_, fun name old name' there same => ?_⟩
    · -- Added nodes differ in their identifiers, and so in their names.
      have ids_nodup : (fresh.map Node.id).Nodup := by
        rw [ids]
        exact (mergeSort_perm _ _).nodup_iff.mpr distinct
      rw [map_congr_left fun row here => (own row here).1] at ids_nodup
      rw [show (fun row : Node Config => host.uuid5 source.id row.upstreamName) =
        host.uuid5 source.id ∘ Node.upstreamName from rfl,
        ← map_map] at ids_nodup
      exact ids_nodup.of_map _
    · obtain ⟨row, before, rfl⟩ := List.mem_map.mp old
      obtain ⟨row', fresh', rfl⟩ := List.mem_map.mp there
      refine new row'.id (chosen row' fresh') (List.mem_map.mpr ⟨row, before, ?_⟩)
      rw [saved.ids row before, (own row' fresh').1, same]
  · rcases List.mem_append.mp here with old | new
    · obtain ⟨row, before, rfl⟩ := List.mem_map.mp old
      rw [merged_id, merged_name]
      exact ⟨saved.ids row before, saved.listed row before⟩
    · exact own row new

end Nodes

section Previews

variable {serial : Nat} {fetches : List Fetch} {before : Source Config} {preview : Preview Config}

/-- What is known of a preview of a source. -/
structure Preview.Sound (host : Host Config) (serial : Nat) (fetches : List Fetch) (source : Source Config)
    (preview : Preview Config) :
    Prop where
  id : preview.id < serial
  revision : preview.sourceRevision ≤ source.revision
  fetch : ∃ fetch, fetches[preview.fetch]? = some fetch ∧ fetch.sourceId = source.id ∧
    fetch.revision = preview.sourceRevision
  receipt : preview.appliedAt.isSome = true → ∃ receipt, preview.receipt = some receipt ∧
    preview.appliedAt = some receipt.appliedAt
  named : ∀ entries metadata, preview.secret = some (entries, metadata) → Named host source.id entries
  unsaved : preview.appliedAt = none → preview.sourceRevision = source.revision →
    ∀ id ∈ preview.selectable, id ∉ source.nodes.map Node.id

/-- The invariant of a source. -/
structure Source.Sound (host : Host Config) (serial : Nat) (fetches : List Fetch)
    (source : Source Config) : Prop where
  id : source.id < serial
  saved : source.Saved host
  previewIds : (source.previews.map Preview.id).Nodup
  previews : ∀ preview ∈ source.previews, preview.Sound host serial fetches source
  merged : source.merged.Nodup ∧ ∀ revision ∈ source.merged, revision < source.revision

theorem Source.Sound.more (sound : source.Sound host serial fetches) {serial' : Nat} (later : serial ≤ serial')
    {fetches' : List Fetch}
    (more : fetches <+: fetches') : source.Sound host serial' fetches' :=
  { sound with
    id := Nat.lt_of_lt_of_le sound.id later
    previews := fun preview here => by
      have known := sound.previews preview here
      obtain ⟨fetch, found, rest⟩ := known.fetch
      obtain ⟨added, rfl⟩ := more
      exact { known with
        id := Nat.lt_of_lt_of_le known.id later
        fetch := ⟨fetch, by rw [List.getElem?_append_left (List.getElem?_eq_some_iff.mp found).1, found], rest⟩ } }

/-- A preview stays as it is, or is applied. -/
def Preview.From (old new : Preview Config) : Prop :=
  new = old ∨ (new.id = old.id ∧ new.sourceRevision = old.sourceRevision ∧ new.fetch = old.fetch ∧
    new.secret = none ∧
    (∃ receipt, new.receipt = some receipt ∧ new.appliedAt = some receipt.appliedAt) ∧ old.appliedAt = none)

/-- What becomes of the previews of a source. -/
structure Source.Advances (now : Nat) (before after : Source Config) : Prop where
  id : after.id = before.id
  previewIds : (after.previews.map Preview.id).Nodup
  previews : ∀ new ∈ after.previews, ∃ old ∈ before.previews, old.From new
  applied : ∀ old ∈ before.previews, ∀ time, old.appliedAt = some time → now ≤ time + receiptLifetime →
    old ∈ after.previews

/-- What a transaction does to a source that was there before, whose new rows
have identifiers from `serial` on. -/
structure Source.Next (now serial : Nat) (before after : Source Config) : Prop where
  id : after.id = before.id
  revision : before.revision ≤ after.revision
  applied : ∀ old ∈ before.previews, ∀ time, old.appliedAt = some time → now ≤ time + receiptLifetime →
    old ∈ after.previews
  origin : ∀ new ∈ after.previews, new.id < serial → ∃ old ∈ before.previews, new.id = old.id ∧
    (old.appliedAt.isSome = true → new = old)

theorem Preview.From.id {old new : Preview Config} (from_old : old.From new) : new.id = old.id := by
  rcases from_old with rfl | ⟨id, _⟩
  exacts [rfl, id]

theorem Source.Advances.next (advances : source.Advances now after) (revision : source.revision ≤ after.revision)
    (serial : Nat) :
    source.Next now serial after where
  id := advances.id
  revision := revision
  applied := advances.applied
  origin new here _ := by
    obtain ⟨old, listed, from_old⟩ := advances.previews new here
    refine ⟨old, listed, from_old.id, fun applied => ?_⟩
    rcases from_old with same | ⟨_, _, _, _, _, pending⟩
    · exact same
    · simp [pending] at applied

theorem Source.Advances.sound (advances : before.Advances now source) (sound : before.Sound host serial fetches)
    (saved : source.Saved host) (revision : before.revision ≤ source.revision)
    (nodes : source.revision = before.revision → source.nodes = before.nodes)
    (merged : source.merged.Nodup ∧ ∀ revision ∈ source.merged, revision < source.revision) :
    source.Sound host serial fetches where
  id := advances.id ▸ sound.id
  saved := saved
  previewIds := advances.previewIds
  previews preview here := by
    obtain ⟨old, listed, from_old⟩ := advances.previews preview here
    have known := sound.previews old listed
    rcases from_old with rfl | ⟨id, was, fetch, opened, ⟨receipt, kept, applied⟩, _⟩
    · exact { known with
        revision := Nat.le_trans known.revision revision
        fetch := advances.id ▸ known.fetch
        named := advances.id ▸ known.named
        unsaved := fun pending same => by
          have stays : source.revision = before.revision := Nat.le_antisymm (same ▸ known.revision) revision
          rw [nodes stays]
          exact known.unsaved pending (same.trans stays) }
    · exact {
        id := id ▸ known.id
        revision := was ▸ Nat.le_trans known.revision revision
        fetch := by
          rw [fetch, was, advances.id]
          exact known.fetch
        receipt := fun _ => ⟨receipt, kept, applied⟩
        named := fun entries metadata secret => nomatch opened.symm.trans secret
        unsaved := fun pending => nomatch pending.symm.trans applied }
  merged := merged

theorem Source.Advances.filter {p : Preview Config → Bool} (id : after.id = source.id)
    (distinct : (source.previews.map Preview.id).Nodup)
    (previews : after.previews = source.previews.filter p)
    (keeps : ∀ old ∈ source.previews, ∀ time, old.appliedAt = some time → now ≤ time + receiptLifetime →
      p old = true) :
    source.Advances now after where
  id := id
  previewIds := previews ▸ distinct.sublist (List.filter_sublist.map Preview.id)
  previews new here := ⟨new, (List.mem_filter.mp (previews ▸ here)).1, .inl rfl⟩
  applied old here time applied recent := by
    rw [previews]
    exact List.mem_filter.mpr ⟨here, keeps old here time applied recent⟩

theorem Source.Advances.same (id : after.id = source.id) (distinct : (source.previews.map Preview.id).Nodup)
    (previews : after.previews = source.previews) : source.Advances now after :=
  .filter (p := fun _ => true) id distinct (by rw [previews, filter_true]) fun _ _ _ _ _ => rfl

theorem expired_recent (time : Nat) (applied : preview.appliedAt = some time)
    (recent : now ≤ time + receiptLifetime) :
    (!preview.expired now) = true := by
  simp [Preview.expired, applied, recent]

theorem Source.Advances.purge (source : Source Config) (now : Nat)
    (distinct : (source.previews.map Preview.id).Nodup) :
    source.Advances now (source.purge now) :=
  .filter rfl distinct rfl fun _ _ time applied recent => expired_recent time applied recent

theorem Source.Sound.bumped (sound : source.Sound host serial fetches) (id : after.id = source.id)
    (saved : after.Saved host) (previews : after.previews = source.previews)
    (revision : after.revision = source.revision + 1)
    (merged : after.merged = source.merged) : after.Sound host serial fetches ∧ source.Next now serial after := by
  have advances : source.Advances now after := .same id sound.previewIds previews
  have later : source.revision ≤ after.revision := revision ▸ Nat.le_succ _
  refine ⟨advances.sound sound saved later (fun same => ?_) ?_, advances.next later serial⟩
  · rw [revision] at same
    exact absurd same (Nat.succ_ne_self _)
  · rw [merged, revision]
    exact ⟨sound.merged.1, fun old here => Nat.lt_succ_of_lt (sound.merged.2 old here)⟩

theorem Source.Sound.stays (sound : source.Sound host serial fetches) (advances : source.Advances now after)
    (nodes : after.nodes = source.nodes) (revision : after.revision = source.revision)
    (merged : after.merged = source.merged) :
    after.Sound host serial fetches ∧ source.Next now serial after := by
  refine ⟨advances.sound sound ⟨nodes ▸ sound.saved.names, ?_, nodes ▸ sound.saved.listed,
    nodes ▸ sound.saved.limit⟩ (Nat.le_of_eq revision.symm) (fun _ => nodes) ?_,
    advances.next (Nat.le_of_eq revision.symm) serial⟩
  · rw [nodes, advances.id]
    exact sound.saved.ids
  · rw [merged, revision]
    exact sound.merged

end Previews

end OpenNode.ExternalSources
