import OpenNode.Inventory
import OpenNode.Lib.Dict

namespace OpenNode

/-- `TrafficData`. Its validators refuse negative counters. -/
structure TrafficData where
  uplink : Nat := 0
  downlink : Nat := 0
deriving DecidableEq, Repr

structure XrayStats where
  inbound : Dict String TrafficData := {}
  outbound : Dict String TrafficData := {}
  user : Dict String TrafficData := {}

/-- `TelemetrySnapshotModel`, with the columns that the accounting reads. -/
structure TelemetrySnapshot where
  serverId : ServerId := 0
  reportedAt : Time
  receivedAt : Time := 0
  stats : Option XrayStats := none
  systemRxTotal : Option Nat := none
  systemTxTotal : Option Nat := none
  systemBootTimeUnix : Option Nat := none

inductive Direction where
  | upload | download
deriving DecidableEq, Repr

/-- Two counters, as the source keeps them: upload before download. -/
abbrev Counts := Nat × Nat

def Counts.of (counts : Counts) : Direction → Nat
  | .upload => counts.1
  | .download => counts.2

/-- Uplink and downlink of an entry. -/
def TrafficData.counts (item : TrafficData) : Counts :=
  (item.uplink, item.downlink)

inductive TagKind where
  | inbound | outbound
deriving DecidableEq, Repr

instance : Fintype TagKind where
  elems := {.inbound, .outbound}
  complete kind := by cases kind <;> simp

def TagKind.name : TagKind → String
  | .inbound => "inbound"
  | .outbound => "outbound"

/-- The key `f"{kind}:{tag}"` under which the counters of a tag are kept. -/
def TagKind.key (kind : TagKind) (tag : String) : String :=
  kind.name ++ ":" ++ tag

/-- The counters of one kind of tags. -/
def XrayStats.kind (stats : XrayStats) : TagKind → Dict String TrafficData
  | .inbound => stats.inbound
  | .outbound => stats.outbound

theorem TagKind.key_inj {kind kind' : TagKind} {tag tag' : String} :
    kind.key tag = kind'.key tag' ↔ kind = kind' ∧ tag = tag' := by
  constructor
  · intro same
    have chars := congrArg String.toList same
    cases kind <;> cases kind' <;>
      simp [TagKind.key, TagKind.name, String.toList_append] at chars
    · exact ⟨rfl, String.toList_inj.mp chars⟩
    · exact ⟨rfl, String.toList_inj.mp chars⟩
  · rintro ⟨rfl, rfl⟩
    rfl

/-- The keys of a kind of tags, with their counters. -/
def XrayStats.kindCounters (stats : XrayStats) (kind : TagKind) : List (String × Counts) :=
  (stats.kind kind).entries.map fun entry => (kind.key entry.1, entry.2.counts)

theorem XrayStats.mem_kindCounters {stats : XrayStats} {kind : TagKind} {key : String} {counts : Counts} :
    (key, counts) ∈ stats.kindCounters kind ↔
      ∃ tag item, (stats.kind kind).get? tag = some item ∧ kind.key tag = key ∧ item.counts = counts := by
  simp only [kindCounters, List.mem_map, Prod.mk.injEq, Prod.exists, Dict.get?_eq_some]

theorem XrayStats.kindCounters_nodup (stats : XrayStats) (kind : TagKind) :
    ((stats.kindCounters kind).map Prod.fst).Nodup := by
  have keys : (stats.kindCounters kind).map Prod.fst = (stats.kind kind).keys.map kind.key := by
    simp [kindCounters, Dict.keys]
  rw [keys]
  exact List.Nodup.map (fun _ _ same => (TagKind.key_inj.mp same).2) (stats.kind kind).nodup

/-- The counters that `record` builds from a report. -/
def XrayStats.counters (stats : XrayStats) : Dict String Counts where
  entries := stats.kindCounters .inbound ++ stats.kindCounters .outbound
  nodup := by
    rw [List.map_append]
    refine List.Nodup.append (stats.kindCounters_nodup _) (stats.kindCounters_nodup _) ?_
    intro key first second
    obtain ⟨⟨_, counts⟩, member, rfl⟩ := List.mem_map.mp first
    obtain ⟨⟨_, counts'⟩, member', same⟩ := List.mem_map.mp second
    obtain ⟨tag, _, _, left, _⟩ := mem_kindCounters.mp member
    obtain ⟨tag', _, _, right, _⟩ := mem_kindCounters.mp member'
    have kinds := TagKind.key_inj.mp (left.trans (same.symm.trans right.symm))
    cases kinds.1

theorem XrayStats.counters_get? (stats : XrayStats) (kind : TagKind) (tag : String) :
    stats.counters.get? (kind.key tag) = ((stats.kind kind).get? tag).map TrafficData.counts := by
  have entries : ∀ {counts}, stats.counters.get? (kind.key tag) = some counts ↔
      ∃ item, (stats.kind kind).get? tag = some item ∧ item.counts = counts := by
    intro counts
    rw [Dict.get?_eq_some]
    constructor
    · intro member
      rcases List.mem_append.mp member with first | second
      · obtain ⟨tag', item, here, key, value⟩ := mem_kindCounters.mp first
        obtain ⟨rfl, rfl⟩ := TagKind.key_inj.mp key
        exact ⟨item, here, value⟩
      · obtain ⟨tag', item, here, key, value⟩ := mem_kindCounters.mp second
        obtain ⟨rfl, rfl⟩ := TagKind.key_inj.mp key
        exact ⟨item, here, value⟩
    · rintro ⟨item, here, value⟩
      have member := mem_kindCounters.mpr ⟨tag, item, here, rfl, value⟩
      cases kind with
      | inbound => exact List.mem_append_left _ member
      | outbound => exact List.mem_append_right _ member
  refine Option.ext fun counts => ?_
  rw [entries, Option.map_eq_some_iff]

theorem XrayStats.sum_counters (stats : XrayStats) (f : String → Counts → Nat) {tags : Finset String}
    (covered : ∀ kind, ∀ tag ∈ (stats.kind kind).keys, tag ∈ tags) :
    (stats.counters.entries.map fun entry => f entry.1 entry.2).sum = ∑ kind : TagKind, ∑ tag ∈ tags,
        (stats.counters.get? (kind.key tag)).elim 0 (f (kind.key tag)) := by
  have each : ∀ kind, ((stats.kindCounters kind).map fun entry => f entry.1 entry.2).sum =
      ∑ tag ∈ tags, (stats.counters.get? (kind.key tag)).elim 0 (f (kind.key tag)) := by
    intro kind
    have sum := (stats.kind kind).sum_entries (fun tag item => f (kind.key tag) item.counts) (covered kind)
    rw [kindCounters, List.map_map]
    refine sum.trans (Finset.sum_congr rfl fun tag _ => ?_)
    rw [stats.counters_get?]
    cases (stats.kind kind).get? tag <;> rfl
  have kinds : (Finset.univ : Finset TagKind) = {.inbound, .outbound} := rfl
  rw [kinds, Finset.sum_pair (by decide), ← each, ← each, counters, List.map_append, List.sum_append]

end OpenNode
