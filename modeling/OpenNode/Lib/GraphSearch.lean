import Mathlib

namespace OpenNode.GraphSearch

open List Relation

section Cycles

variable {V : Type*}

/-- A relation without a cycle. -/
def Acyclic (R : V → V → Prop) : Prop :=
  ∀ v, ¬ TransGen R v v

variable {R R' New : V → V → Prop}

theorem Acyclic.mono (acyclic : Acyclic R) (fewer : ∀ u v, R' u v → R u v) : Acyclic R' :=
  fun v cycle => acyclic v (TransGen.mono fewer v v cycle)

theorem path_cases (grown : ∀ u v, R' u v → R u v ∨ New u v) {a b : V} (path : TransGen R' a b) :
    TransGen R a b ∨ ∃ u v, New u v ∧ ReflTransGen R' a u ∧ ReflTransGen R' v b := by
  induction path with
  | single edge =>
    rcases grown _ _ edge with old | new
    · exact .inl (.single old)
    · exact .inr ⟨_, _, new, .refl, .refl⟩
  | tail path edge ih =>
    rcases grown _ _ edge with old | new
    · rcases ih with earlier | ⟨u, v, new, before, after⟩
      · exact .inl (earlier.tail old)
      · exact .inr ⟨u, v, new, before, after.tail edge⟩
    · exact .inr ⟨_, _, new, path.to_reflTransGen, .refl⟩

theorem Acyclic.extend (acyclic : Acyclic R) (grown : ∀ u v, R' u v → R u v ∨ New u v)
    (open_ended : ∀ u v, New u v → ¬ ReflTransGen R' v u) : Acyclic R' := by
  intro v cycle
  rcases path_cases grown cycle with old | ⟨u, w, new, before, after⟩
  · exact acyclic v old
  · exact open_ended u w new (after.trans before)

/-- A set of vertices that no edge leaves. -/
def Closed (edges : List (V × V)) (S : V → Prop) : Prop :=
  ∀ u v, (u, v) ∈ edges → S u → S v

theorem Closed.path {edges : List (V × V)} {S : V → Prop} (closed : Closed edges S) {u v : V} (here : S u)
    (path : ReflTransGen (fun u v => (u, v) ∈ edges) u v) : S v := by
  induction path with
  | refl => exact here
  | tail _ edge ih => exact closed _ _ edge ih

theorem seen_closed {edges : List (V × V)} {destination : V} {seen : List V}
    (pushed : ∀ u v, (u, v) ∈ edges → u ∈ seen → v ∈ seen ∨ v ∈ ([] : List V))
    (missed : destination ∉ seen) :
    ∃ S : V → Prop, Closed edges S ∧ ¬ S destination ∧ ∀ v, v ∈ seen ∨ v ∈ ([] : List V) → S v :=
  ⟨(· ∈ seen), fun u v edge here => by simpa using pushed u v edge here, missed, by simp⟩

end Cycles

variable {V : Type*} [DecidableEq V]

/-- The vertices that a graph, given by its edges, leads to from one vertex. -/
def successors (edges : List (V × V)) (v : V) : List V :=
  (edges.filter fun edge => decide (edge.1 = v)).map Prod.snd

/-- The loop of a depth-first search with its stack and the vertices seen. -/
def search (edges : List (V × V)) (destination : V) : Nat → List V → List V → Bool
  | 0, _, _ => false
  | _ + 1, [], _ => false
  | fuel + 1, current :: pending, seen =>
    if current = destination then true
    else if current ∈ seen then search edges destination fuel pending seen
    else search edges destination fuel (successors edges current ++ pending) (current :: seen)

/-- Each turn takes one vertex from the stack and pushes the ends of edges that
it will never push again, so the edges bound the turns. -/
def reaches (edges : List (V × V)) (start destination : V) : Bool :=
  search edges destination (edges.length + 1) [start] []

variable {edges : List (V × V)} {destination start : V}

theorem mem_successors {u v : V} : v ∈ successors edges u ↔ (u, v) ∈ edges := by
  simp [successors]

/-- The edges whose start has not been seen. -/
def unseen (edges : List (V × V)) (seen : List V) : List (V × V) :=
  edges.filter fun edge => decide (edge.1 ∉ seen)

theorem unseen_cons (edges : List (V × V)) {current : V} {seen : List V} (new : current ∉ seen) :
    (unseen edges (current :: seen)).length + (successors edges current).length = (unseen edges seen).length := by
  induction edges with
  | nil => rfl
  | cons edge edges ih =>
    simp only [unseen, successors, filter_cons, length_map, mem_cons] at ih ⊢
    by_cases here : edge.1 = current
    · simp only [here, new, true_or, not_true_eq_false, decide_false, decide_true, not_false_eq_true,
        if_true, Bool.false_eq_true, if_false, length_cons]
      omega
    · by_cases old : edge.1 ∈ seen
      · simpa [here, old] using ih
      · simp only [here, old, or_self, not_false_eq_true, decide_true, decide_false, if_true,
          Bool.false_eq_true, if_false, length_cons]
        omega

theorem search_closed {fuel : Nat} {pending seen : List V}
    (enough : pending.length + (unseen edges seen).length ≤ fuel)
    (pushed : ∀ u v, (u, v) ∈ edges → u ∈ seen → v ∈ seen ∨ v ∈ pending) (missed : destination ∉ seen)
    (failed : search edges destination fuel pending seen = false) :
    ∃ S : V → Prop, Closed edges S ∧ ¬ S destination ∧ ∀ v, v ∈ seen ∨ v ∈ pending → S v := by
  induction fuel generalizing pending seen with
  | zero =>
    obtain rfl : pending = [] := eq_nil_of_length_eq_zero (by omega)
    exact seen_closed pushed missed
  | succ fuel ih =>
    cases pending with
    | nil => exact seen_closed pushed missed
    | cons current pending =>
      rw [length_cons] at enough
      have other : current ≠ destination := by
        rintro rfl
        simp [search] at failed
      by_cases old : current ∈ seen
      · simp only [search, other, old, if_false, if_true] at failed
        have kept : ∀ u v, (u, v) ∈ edges → u ∈ seen → v ∈ seen ∨ v ∈ pending := by
          intro u v edge here
          rcases pushed u v edge here with there | there
          · exact .inl there
          · rcases List.mem_cons.mp there with rfl | there
            exacts [.inl old, .inr there]
        obtain ⟨S, closed, outside, all⟩ := ih (by omega) kept missed failed
        refine ⟨S, closed, outside, fun v here => all v ?_⟩
        rcases here with here | here
        · exact .inl here
        · rcases List.mem_cons.mp here with rfl | here
          exacts [.inl old, .inr here]
      · simp only [search, other, old, if_false] at failed
        have fewer := unseen_cons edges old
        have kept : ∀ u v, (u, v) ∈ edges → u ∈ current :: seen →
            v ∈ current :: seen ∨ v ∈ successors edges current ++ pending := by
          intro u v edge here
          rcases List.mem_cons.mp here with rfl | here
          · exact .inr (mem_append_left _ (mem_successors.mpr edge))
          · have := pushed u v edge here
            simp only [mem_cons, mem_append] at this ⊢
            tauto
        have outside : destination ∉ current :: seen := by
          simpa [missed] using other.symm
        obtain ⟨S, closed, absent, all⟩ := ih (by simp only [length_append]; omega) kept outside failed
        refine ⟨S, closed, absent, fun v here => all v ?_⟩
        simp only [mem_cons, mem_append] at here ⊢
        tauto

theorem not_reachable (failed : reaches edges start destination = false) :
    ¬ ReflTransGen (fun u v => (u, v) ∈ edges) start destination := by
  intro path
  have enough : [start].length + (unseen edges []).length ≤ edges.length + 1 := by
    have := length_filter_le (fun edge : V × V => decide (edge.1 ∉ ([] : List V))) edges
    simp only [unseen, length_singleton]
    omega
  obtain ⟨S, closed, absent, all⟩ := search_closed enough (by simp) (by simp) failed
  exact absent (closed.path (all start (.inr (mem_singleton_self _))) path)

section Layers

/-- The vertices that a set leads to, one layer after another. -/
def layers (edges : List (V × V)) : Nat → List V → List V → List V
  | 0, seen, _ => seen
  | fuel + 1, seen, frontier =>
    match (edges.filter fun edge => decide (edge.1 ∈ frontier ∧ edge.2 ∉ seen)).map Prod.snd with
    | [] => seen
    | next => layers edges fuel (seen ++ next) next

/-- Each layer is the end of an edge that has not been seen, so the edges bound the layers. -/
def followers (edges : List (V × V)) (start : List V) : List V :=
  layers edges (edges.length + 1) start start

theorem subset_layers (edges : List (V × V)) (fuel : Nat) (seen frontier : List V) :
    seen ⊆ layers edges fuel seen frontier := by
  induction fuel generalizing seen frontier with
  | zero => exact List.Subset.refl _
  | succ fuel ih =>
    unfold layers
    split
    · exact List.Subset.refl _
    · exact List.Subset.trans (subset_append_left _ _) (ih _ _)

variable {S : V → Prop}

theorem layers_subset (closed : Closed edges S) (fuel : Nat) {seen frontier : List V} (known : ∀ v ∈ seen, S v)
    (next : ∀ v ∈ frontier, S v) : ∀ v ∈ layers edges fuel seen frontier, S v := by
  induction fuel generalizing seen frontier with
  | zero => exact known
  | succ fuel ih =>
    unfold layers
    split
    · exact known
    · have inside : ∀ v ∈ (edges.filter fun edge => decide (edge.1 ∈ frontier ∧ edge.2 ∉ seen)).map Prod.snd,
          S v := by
        intro v here
        obtain ⟨⟨u, w⟩, member, rfl⟩ := List.mem_map.mp here
        obtain ⟨member, fresh⟩ := List.mem_filter.mp member
        exact closed u w member (next u (of_decide_eq_true fresh).1)
      refine ih (fun v here => ?_) inside
      rcases List.mem_append.mp here with old | new
      · exact known v old
      · exact inside v new

/-- The edges whose end has not been seen. -/
def unmet (edges : List (V × V)) (seen : List V) : List (V × V) :=
  edges.filter fun edge => decide (edge.2 ∉ seen)

theorem unmet_append (edges : List (V × V)) (seen next : List V) {edge : V × V} (here : edge ∈ edges)
    (fresh : edge.2 ∉ seen) (met : edge.2 ∈ next) :
    (unmet edges (seen ++ next)).length < (unmet edges seen).length := by
  have fewer : unmet edges (seen ++ next) = (unmet edges seen).filter fun edge => decide (edge.2 ∉ next) := by
    unfold unmet
    rw [filter_filter]
    refine filter_congr fun edge _ => ?_
    simp only [mem_append, not_or, Bool.decide_and, Bool.and_comm]
  rw [fewer]
  exact List.length_filter_lt_length_iff_exists.mpr
    ⟨edge, List.mem_filter.mpr ⟨here, decide_eq_true fresh⟩, by simpa using met⟩

theorem layers_closed {fuel : Nat} {seen frontier : List V} (enough : (unmet edges seen).length < fuel)
    (pushed : ∀ u v, (u, v) ∈ edges → u ∈ seen → v ∈ seen ∨ u ∈ frontier) :
    Closed edges (· ∈ layers edges fuel seen frontier) := by
  induction fuel generalizing seen frontier with
  | zero => exact absurd enough (Nat.not_lt_zero _)
  | succ fuel ih =>
    have found : ∀ u v, (u, v) ∈ edges → u ∈ frontier → v ∉ seen →
        v ∈ (edges.filter fun edge => decide (edge.1 ∈ frontier ∧ edge.2 ∉ seen)).map Prod.snd := by
      intro u v edge there fresh
      exact List.mem_map.mpr ⟨(u, v), List.mem_filter.mpr ⟨edge, decide_eq_true ⟨there, fresh⟩⟩, rfl⟩
    have fresh : ∀ v ∈ (edges.filter fun edge => decide (edge.1 ∈ frontier ∧ edge.2 ∉ seen)).map Prod.snd,
        ∃ edge ∈ edges, edge.2 = v ∧ v ∉ seen := by
      intro v here
      obtain ⟨edge, member, rfl⟩ := List.mem_map.mp here
      obtain ⟨member, new⟩ := List.mem_filter.mp member
      exact ⟨edge, member, rfl, (of_decide_eq_true new).2⟩
    unfold layers
    split
    · rename_i ended
      rw [ended] at found
      intro u v edge here
      by_contra unseen
      rcases pushed u v edge here with there | there
      · exact unseen there
      · exact absurd (found u v edge there unseen) not_mem_nil
    · rename_i more
      obtain ⟨first, member⟩ := exists_mem_of_ne_nil _ more
      obtain ⟨edge, listed, rfl, new⟩ := fresh first member
      have fewer := unmet_append edges seen _ listed new member
      refine ih (by omega) fun u v edge here => ?_
      rcases List.mem_append.mp here with old | next
      · by_cases known : v ∈ seen
        · exact .inl (mem_append_left _ known)
        · have there := (pushed u v edge old).resolve_left known
          exact .inl (mem_append_right _ (found u v edge there known))
      · exact .inr next

theorem followers_closed (edges : List (V × V)) (start : List V) : Closed edges (· ∈ followers edges start) := by
  refine layers_closed (Nat.lt_succ_of_le (length_filter_le _ _)) fun u v _ here => .inr here

theorem followers_subset (closed : Closed edges S) {start : List V} (known : ∀ v ∈ start, S v) :
    ∀ v ∈ followers edges start, S v :=
  layers_subset closed _ known known

theorem subset_followers (edges : List (V × V)) (start : List V) : start ⊆ followers edges start :=
  subset_layers edges _ start start

end Layers

end OpenNode.GraphSearch
