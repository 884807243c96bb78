import OpenNode.Json
import OpenNode.Lib.Assoc
import OpenNode.Lib.FirstCopies

namespace OpenNode.RuleLists

open FirstCopies List

abbrev Fields := List (String × Json)

/-- The Unicode tables behind `strip`, `upper` and `casefold`. -/
structure Casing where
  space : Char → Bool
  upper : Char → List Char
  casefold : Char → List Char

inductive Mode where
  | replace
  | prepend
  | append
deriving DecidableEq, Repr

section

variable (casing : Casing)

def strip (text : List Char) : List Char :=
  ((text.dropWhile casing.space).reverse.dropWhile casing.space).reverse

def ruleKey (rule : String) : List Char :=
  let parts := (rule.toList.splitOn ',').map (strip casing)
  ([','].intercalate (parts.take 2)).flatMap casing.casefold

/-- `value.strip().upper().startswith(start)`. -/
def startsUpper (start rule : String) : Bool :=
  start.toList.isPrefixOf ((strip casing rule.toList).flatMap casing.upper)

def isMatch (rule : String) : Bool :=
  startsUpper casing "MATCH," rule

def isRuleSet (rule : String) : Bool :=
  startsUpper casing "RULE-SET," rule

/-- The custom rules that `_apply_rule_list` adds. -/
def incoming (custom : List String) : List String :=
  (custom.map fun item => String.ofList (strip casing item.toList)).eraseDups

/-- Whether a rule that is there stays beside these. -/
def stays (added : List String) (rule : String) : Bool :=
  isRuleSet casing rule ||
    !(added.map (ruleKey casing)).contains (ruleKey casing rule) &&
      !(added.any (isMatch casing) && isMatch casing rule)

/-- The rules after `_apply_rule_list`. -/
def mergeRules (current custom : List String) (mode : Mode) : List String :=
  let added := incoming casing custom
  match mode with
  | .replace => (added ++ current.filter (isRuleSet casing)).eraseDups
  | .prepend => added ++ current.filter (stays casing added)
  | .append => current.filter (stays casing added) ++ added

/-- The rules of a configuration, where a value of another form has none. -/
def currentRules (config : Fields) : List String :=
  match config.lookup "rules" with
  | some (.arr items) => (items.mapM Json.str?).getD []
  | _ => []

def applyRuleList (config : Fields) (custom : List String) (mode : Mode) : Fields :=
  Assoc.put "rules" (.arr ((mergeRules casing (currentRules config) custom mode).map .str)) config

variable {casing : Casing}

theorem nodup_incoming (custom : List String) : (incoming casing custom).Nodup :=
  nodup_eraseDups _

variable {rule : String}

theorem startsUpper_inj {start other : String} (first : startsUpper casing start rule = true)
    (second : startsUpper casing other rule = true) : start.toList <+: other.toList ∨
      other.toList <+: start.toList :=
  prefix_or_prefix_of_prefix (List.isPrefixOf_iff_prefix.mp first) (List.isPrefixOf_iff_prefix.mp second)

theorem isMatch_of_isRuleSet (set : isRuleSet casing rule = true) : isMatch casing rule = false := by
  rw [Bool.eq_false_iff]
  intro final
  have related := startsUpper_inj set final
  revert related
  decide

variable {added : List String}

theorem not_stays : stays casing added rule = false ↔
      isRuleSet casing rule = false ∧ ∃ other ∈ added, ruleKey casing other = ruleKey casing rule ∨
        isMatch casing other = true ∧ isMatch casing rule = true := by
  rw [stays, Bool.or_eq_false_iff]
  refine and_congr_right fun _ => ?_
  rw [Bool.and_eq_false_iff, Bool.not_eq_false', Bool.not_eq_false', Bool.and_eq_true, contains_iff_mem, mem_map,
    any_eq_true]
  constructor
  · rintro (⟨other, member, same⟩ | ⟨⟨other, member, final⟩, here⟩)
    · exact ⟨other, member, .inl same⟩
    · exact ⟨other, member, .inr ⟨final, here⟩⟩
  · rintro ⟨other, member, same | ⟨final, here⟩⟩
    · exact .inl ⟨other, member, same⟩
    · exact .inr ⟨⟨other, member, final⟩, here⟩

theorem stays_added (member : rule ∈ added) : stays casing added rule = isRuleSet casing rule := by
  cases set : isRuleSet casing rule with
  | true => rw [stays, set, Bool.true_or]
  | false => exact not_stays.mpr ⟨set, rule, member, .inl rfl⟩

theorem stays_isMatch (kept : stays casing added rule = true) (final : isMatch casing rule = true) :
    ∀ other ∈ added, isMatch casing other = false := by
  intro other member
  rw [Bool.eq_false_iff]
  intro catching
  have set : isRuleSet casing rule = false := by
    rw [Bool.eq_false_iff]
    exact fun set => Bool.noConfusion ((isMatch_of_isRuleSet set).symm.trans final)
  have gone : stays casing added rule = false := not_stays.mpr ⟨set, other, member, .inr ⟨catching, final⟩⟩
  exact Bool.noConfusion (kept.symm.trans gone)

/-- What the rules that were there leave beside the incoming ones. -/
def kept (casing : Casing) (current added : List String) (mode : Mode) : List String :=
  match mode with
  | .replace => ((current.filter (isRuleSet casing)).removeAll added).eraseDups
  | .prepend | .append => current.filter (stays casing added)

theorem mergeRules_eq (current custom : List String) (mode : Mode) : mergeRules casing current custom mode =
      match mode with
      | .append => kept casing current (incoming casing custom) mode ++ incoming casing custom
      | _ => incoming casing custom ++ kept casing current (incoming casing custom) mode := by
  cases mode with
  | replace => exact eraseDups_append_of_nodup (nodup_incoming custom)
  | prepend => rfl
  | append => rfl

variable {current custom : List String} {mode : Mode}

theorem mem_mergeRules : rule ∈ mergeRules casing current custom mode ↔
      rule ∈ incoming casing custom ∨ rule ∈ kept casing current (incoming casing custom) mode := by
  rw [mergeRules_eq]
  cases mode with
  | replace => exact mem_append
  | prepend => exact mem_append
  | append => rw [mem_append, or_comm]

theorem kept_sublist (current added : List String) (mode : Mode) :
    (kept casing current added mode).Sublist current := by
  cases mode with
  | replace => exact ((eraseDups_sublist _).trans filter_sublist).trans filter_sublist
  | prepend => exact filter_sublist
  | append => exact filter_sublist

theorem count_mergeRules (member : rule ∈ incoming casing custom)
    (plain : mode = .replace ∨ isRuleSet casing rule = false) :
    (mergeRules casing current custom mode).count rule = 1 := by
  have once : (incoming casing custom).count rule = 1 := count_eq_one_of_mem (nodup_incoming custom) member
  have others : (kept casing current (incoming casing custom) mode).count rule = 0 := by
    rw [count_eq_zero]
    intro stayed
    have filtered : mode = .replace ∨ stays casing (incoming casing custom) rule = true := by
      cases mode with
      | replace => exact .inl rfl
      | prepend => exact .inr (List.mem_filter.mp stayed).2
      | append => exact .inr (List.mem_filter.mp stayed).2
    rcases filtered with rfl | held
    · have fresh := (List.mem_filter.mp (List.mem_eraseDups.mp stayed)).2
      simp [member] at fresh
    · rcases plain with rfl | plain
      · have fresh := (List.mem_filter.mp (List.mem_eraseDups.mp stayed)).2
        simp [member] at fresh
      · rw [stays_added member, plain] at held
        cases held
  rw [mergeRules_eq]
  cases mode <;> simp only [count_append, once, others]

theorem filter_kept_isMatch (final : mode = .replace ∨ added.any (isMatch casing) = true) :
    (kept casing current added mode).filter (isMatch casing) = [] := by
  rw [filter_eq_nil_iff]
  intro rule member catching
  have filtered : isRuleSet casing rule = true ∨ mode ≠ .replace ∧ stays casing added rule = true := by
    cases mode with
    | replace => exact .inl (List.mem_filter.mp (List.mem_filter.mp (List.mem_eraseDups.mp member)).1).2
    | prepend => exact .inr ⟨nofun, (List.mem_filter.mp member).2⟩
    | append => exact .inr ⟨nofun, (List.mem_filter.mp member).2⟩
  rcases filtered with set | ⟨other, held⟩
  · exact Bool.noConfusion ((isMatch_of_isRuleSet set).symm.trans catching)
  · obtain ⟨added, inside, found⟩ := List.any_eq_true.mp (final.resolve_left other)
    exact Bool.noConfusion ((stays_isMatch held catching added inside).symm.trans found)

theorem filter_mergeRules_isMatch (final : mode = .replace ∨ (incoming casing custom).any (isMatch casing) = true) :
    (mergeRules casing current custom mode).filter (isMatch casing) =
      (incoming casing custom).filter (isMatch casing) := by
  rw [mergeRules_eq]
  cases mode <;> simp only [filter_append, filter_kept_isMatch final, append_nil, nil_append]

theorem filter_mergeRules_isMatch_sublist (final : (incoming casing custom).any (isMatch casing) = false) :
    ((mergeRules casing current custom mode).filter (isMatch casing)).Sublist
    (current.filter (isMatch casing)) := by
  have none : (incoming casing custom).filter (isMatch casing) = [] := by
    rw [filter_eq_nil_iff]
    exact List.any_eq_false.mp final
  have others : ((kept casing current (incoming casing custom) mode).filter (isMatch casing)).Sublist
      (current.filter (isMatch casing)) := (kept_sublist _ _ _).filter _
  rw [mergeRules_eq]
  cases mode <;> simpa only [filter_append, none, append_nil, nil_append] using others

theorem filter_stays_added (plain : ∀ rule ∈ added, isRuleSet casing rule = false) :
    added.filter (stays casing added) = [] := by
  rw [filter_eq_nil_iff]
  intro rule member held
  rw [stays_added member, plain rule member] at held
  cases held

theorem mergeRules_again (plain : mode = .replace ∨ ∀ rule ∈ incoming casing custom,
    isRuleSet casing rule = false) :
    mergeRules casing (mergeRules casing current custom mode) custom mode =
      mergeRules casing current custom mode := by
  have nothing (other : mode ≠ .replace) :
      (incoming casing custom).filter (stays casing (incoming casing custom)) = [] :=
    filter_stays_added (plain.resolve_left other)
  cases mode with
  | replace =>
    let added := incoming casing custom
    let rest := ((current.filter (isRuleSet casing)).removeAll added).eraseDups
    have first : mergeRules casing current custom .replace = added ++ rest := mergeRules_eq current custom .replace
    have sets : rest.filter (isRuleSet casing) = rest := by
      refine List.filter_eq_self.mpr fun rule member => ?_
      exact (List.mem_filter.mp (List.mem_filter.mp (List.mem_eraseDups.mp member)).1).2
    have fresh : rest.removeAll added = rest := by
      refine List.filter_eq_self.mpr fun rule member => ?_
      exact (List.mem_filter.mp (List.mem_eraseDups.mp member)).2
    have again : ((added ++ rest).filter (isRuleSet casing)).removeAll added = rest := by
      rw [filter_append, sets, List.removeAll, filter_append, ← List.removeAll, ← List.removeAll, fresh]
      rw [append_left_eq_self]
      refine List.filter_eq_nil_iff.mpr fun rule member => ?_
      simp [(List.mem_filter.mp member).1]
    rw [first, mergeRules_eq]
    change added ++ (((added ++ rest).filter (isRuleSet casing)).removeAll added).eraseDups = added ++ rest
    rw [again, eraseDups_of_nodup (nodup_eraseDups _)]
  | prepend =>
    simp only [mergeRules, filter_append, nothing nofun, nil_append, filter_filter, Bool.and_self]
  | append =>
    simp only [mergeRules, filter_append, nothing nofun, append_nil, filter_filter, Bool.and_self]

theorem currentRules_put (config : Fields) (rules : List String) :
    currentRules (Assoc.put "rules" (.arr (rules.map .str)) config) = rules := by
  have read : ((rules.map Json.str).mapM Json.str?) = some rules := by
    induction rules with
    | nil => rfl
    | cons rule rest ih => rw [map_cons, mapM_cons, ih]; rfl
  rw [currentRules, Assoc.lookup_put, if_pos rfl]
  simp only [read, Option.getD_some]

theorem currentRules_applyRuleList (config : Fields) (custom : List String) (mode : Mode) :
    currentRules (applyRuleList casing config custom mode) = mergeRules casing (currentRules config) custom mode :=
  currentRules_put config _

/-- A rule that no MATCH rule precedes, unless one of these comes first. -/
def Reachable (casing : Casing) (result added : List String) (rule : String) : Prop :=
  ∃ before after, result = before ++ rule :: after ∧
    ((∀ other ∈ before, isMatch casing other = false) ∨ ∃ other ∈ before, other ∈ added ∧
      isMatch casing other = true)

/-- What merging a list of custom rules keeps of the rules that were there and of the list. -/
structure MergeLaw (casing : Casing) (current added : List String) (mode : Mode) (result : List String) : Prop where
  /-- A rule gives way to a rule with its key or, as a MATCH rule, to another one. -/
  lost : mode ≠ .replace → ∀ rule ∈ current, rule ∉ result → ∃ other ∈ added,
    ruleKey casing other = ruleKey casing rule ∨ isMatch casing other = true ∧ isMatch casing rule = true
  /-- The list stands in the result as one block, and the other rules keep their order. -/
  block : ∃ others : List String, others.Sublist current ∧ result = if mode = .append then others ++ added
    else added ++ others
  distinct : added.Nodup
  once : ∀ rule ∈ added, mode = .replace ∨ isRuleSet casing rule = false → result.count rule = 1
  catchAll : (added.filter (isMatch casing)).length ≤ 1 → mode = .replace ∨ added.any (isMatch casing) = true →
    result.filter (isMatch casing) = added.filter (isMatch casing)
  kept : added.any (isMatch casing) = false →
    (result.filter (isMatch casing)).Sublist (current.filter (isMatch casing))
  single : (added.filter (isMatch casing)).length ≤ 1 →
    mode = .replace ∨ added.any (isMatch casing) = true ∨ (current.filter (isMatch casing)).length ≤ 1 →
    (result.filter (isMatch casing)).length ≤ 1
  reachable : mode ≠ .append ∨ added.any (isMatch casing) = true ∨ current.any (isMatch casing) = false →
    ∀ rule ∈ added, Reachable casing result added rule

theorem reachable_of_block {others : List String} (rest : List String)
    (final : ∀ other ∈ others, isMatch casing other = false) (member : rule ∈ added) :
    Reachable casing (others ++ added ++ rest) added rule := by
  obtain ⟨before, after, split⟩ := append_of_mem member
  refine ⟨others ++ before, after ++ rest, by simp [split], ?_⟩
  by_cases caught : ∃ other ∈ before, isMatch casing other = true
  · obtain ⟨other, inside, catching⟩ := caught
    refine .inr ⟨other, mem_append_right _ inside, ?_, catching⟩
    rw [split]
    exact mem_append_left _ inside
  · refine .inl fun other inside => ?_
    rcases List.mem_append.mp inside with old | new
    · exact final other old
    · exact Bool.eq_false_iff.mpr fun catching => caught ⟨other, new, catching⟩

theorem mergeRules_law (current custom : List String) (mode : Mode) :
    MergeLaw casing current (incoming casing custom) mode (mergeRules casing current custom mode) where
  lost other rule member gone := by
    have left : stays casing (incoming casing custom) rule = false := by
      rw [Bool.eq_false_iff]
      intro held
      refine gone (mem_mergeRules.mpr (.inr ?_))
      cases mode with
      | replace => exact absurd rfl other
      | prepend => exact List.mem_filter.mpr ⟨member, held⟩
      | append => exact List.mem_filter.mpr ⟨member, held⟩
    exact (not_stays.mp left).2
  block := by
    refine ⟨kept casing current (incoming casing custom) mode, kept_sublist _ _ _, ?_⟩
    rw [mergeRules_eq]
    cases mode <;> rfl
  distinct := nodup_incoming custom
  once _ member plain := count_mergeRules member plain
  catchAll _ := filter_mergeRules_isMatch
  kept := filter_mergeRules_isMatch_sublist
  single one others := by
    by_cases final : mode = .replace ∨ (incoming casing custom).any (isMatch casing) = true
    · rwa [filter_mergeRules_isMatch final]
    · rw [not_or, Bool.not_eq_true] at final
      have few := (others.resolve_left final.1).resolve_left (Bool.eq_false_iff.mp final.2)
      exact Nat.le_trans (filter_mergeRules_isMatch_sublist final.2).length_le few
  reachable clear rule member := by
    rw [mergeRules_eq]
    by_cases last : mode = .append
    · subst last
      have final : ∀ other ∈ kept casing current (incoming casing custom) .append,
          isMatch casing other = false := by
        intro other inside
        rw [Bool.eq_false_iff]
        intro catching
        rcases clear.resolve_left (not_not.mpr rfl) with found | none
        · exact List.filter_eq_nil_iff.mp (filter_kept_isMatch (.inr found)) other inside catching
        · exact List.any_eq_false.mp none other ((kept_sublist _ _ _).subset inside) catching
      have found := reachable_of_block [] final member
      rwa [append_nil] at found
    · have first : ∀ other ∈ ([] : List String), isMatch casing other = false := nofun
      have found := reachable_of_block (kept casing current (incoming casing custom) mode) first member
      cases mode with
      | replace => exact found
      | prepend => exact found
      | append => exact absurd rfl last

theorem applyRuleList_again {config : Fields}
    (plain : mode = .replace ∨ ∀ rule ∈ incoming casing custom, isRuleSet casing rule = false) :
    applyRuleList casing (applyRuleList casing config custom mode) custom mode =
      applyRuleList casing config custom mode := by
  rw [applyRuleList, currentRules_applyRuleList, mergeRules_again plain]
  exact Assoc.put_put _ _ _ _

end

/-- A list of custom rules merges with the rules of a configuration by their keys: it
keeps its order and its place, loses no rule of another key, and can be applied again. -/
theorem ruleLists_law (casing : Casing) (config : Fields) (custom : List String) (mode : Mode) :
    MergeLaw casing (currentRules config) (incoming casing custom) mode
      (currentRules (applyRuleList casing config custom mode)) ∧
    ((mode = .replace ∨ ∀ rule ∈ incoming casing custom, isRuleSet casing rule = false) →
      applyRuleList casing (applyRuleList casing config custom mode) custom mode =
        applyRuleList casing config custom mode) := by
  rw [currentRules_applyRuleList]
  exact ⟨mergeRules_law _ _ _, applyRuleList_again⟩

/-- The tables for ASCII texts. -/
def asciiCasing : Casing where
  space c := c.isWhitespace
  upper c := [c.toUpper]
  casefold c := [c.toLower]

/-- The fields of a rule before its policy. -/
def matcher (rule : String) : List (List Char) :=
  (rule.toList.splitOn ',').dropLast

theorem mergeRules_nested :
    mergeRules asciiCasing ["AND,((DOMAIN,a.com),(NETWORK,UDP)),REJECT"]
    ["AND,((DOMAIN,a.com),(DST-PORT,443)),DIRECT"] .prepend
      = ["AND,((DOMAIN,a.com),(DST-PORT,443)),DIRECT"] := by
  decide +kernel

theorem mergeRules_behind :
    incoming asciiCasing ["DOMAIN,a.com,DIRECT"] = ["DOMAIN,a.com,DIRECT"] ∧
      mergeRules asciiCasing ["MATCH,Proxy"]
        ["DOMAIN,a.com,DIRECT"] .append = ["MATCH,Proxy", "DOMAIN,a.com,DIRECT"] := by
  decide +kernel

/-- A rule with nested commas is lost to one with another matcher, and an appended rule
stands behind the MATCH rule that is there. -/
theorem nestedRule_lost_appendedRule_behind :
    (∃ current custom nested, nested ∈ current ∧ nested ∉ mergeRules asciiCasing current custom .prepend ∧
      isMatch asciiCasing nested = false ∧ ∀ other ∈ incoming asciiCasing custom, matcher other ≠ matcher nested) ∧
    ∃ current custom rule, rule ∈ incoming asciiCasing custom ∧
      ¬ Reachable asciiCasing (mergeRules asciiCasing current custom .append)
        (incoming asciiCasing custom) rule := by
  refine ⟨⟨["AND,((DOMAIN,a.com),(NETWORK,UDP)),REJECT"], ["AND,((DOMAIN,a.com),(DST-PORT,443)),DIRECT"],
    "AND,((DOMAIN,a.com),(NETWORK,UDP)),REJECT", mem_cons_self, ?_, ?_, ?_⟩,
    ["MATCH,Proxy"], ["DOMAIN,a.com,DIRECT"], "DOMAIN,a.com,DIRECT", ?_, ?_⟩
  · rw [mergeRules_nested]
    decide
  · decide +kernel
  · decide +kernel
  · rw [mergeRules_behind.1]
    exact mem_cons_self
  · rw [mergeRules_behind.1, mergeRules_behind.2]
    rintro ⟨before, after, split, clear⟩
    have only : before = ["MATCH,Proxy"] := by
      cases before with
      | nil => exact absurd (List.cons.inj split).1 (by decide)
      | cons first others =>
        obtain ⟨rfl, rest⟩ := List.cons.inj split
        cases others with
        | nil => rfl
        | cons second others =>
          have short := congrArg List.length (List.cons.inj rest).2
          simp at short
    subst only
    have catching : isMatch asciiCasing "MATCH,Proxy" = true := by decide +kernel
    rcases clear with none | ⟨other, inside, added, -⟩
    · exact Bool.noConfusion ((none _ mem_cons_self).symm.trans catching)
    · obtain rfl := List.mem_singleton.mp inside
      exact absurd (List.mem_singleton.mp added) (by decide)

end OpenNode.RuleLists
