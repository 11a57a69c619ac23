import Mathlib.Data.Finset.Card
import Mathlib.Order.Nat
import DurableGraph.Graph.Distance
import DurableGraph.Proofs.Graph.SetGraph

/-!
# Shortest paths are exact

The distance of two nodes is the least number of hops of a walk between them.  The search goes
out level by level: level `d` holds the nodes at distance `d`, whatever cycles the graph has.
Every round but the last finds a node that was not seen before, so there are no more rounds
than nodes.

    search from [a] answers some d  ↔  d is the distance of a and b        (Search.eq_some_iff)
    search from [a] ends, within nodeCount rounds                          (search_levelOf)
    shortestPath a b = .ok (some d) ↔  a ≠ b and d is their distance       (both are nodes)
    shortestPath a b = .ok none     ↔  a = b, or no walk joins them        (both are nodes)
-/

namespace DurableGraph

namespace Graph

/-- The least number of hops of a walk from `a` to `b`. -/
def Distance (g : Graph) (a b : NodeId) (hops : Nat) : Prop := IsLeast {n | g.Walk a b n} hops

/-- The search for a target from a level on, for as many rounds as it takes. -/
inductive Search (g : Graph) (target : NodeId) :
    List NodeId → NodeSet → Nat → Option Nat → Prop where
  | found {level : List NodeId} {seen : NodeSet} {hops : Nat} (here : target ∈ level) :
      Search g target level seen hops (some hops)
  | exhausted {seen : NodeSet} {hops : Nat} : Search g target [] seen hops none
  | onward {level : List NodeId} {seen : NodeSet} {hops : Nat} {answer : Option Nat}
      (apart : target ∉ level) (more : level ≠ [])
      (rest : Search g target (g.nextLevel level seen).1 (g.nextLevel level seen).2 (hops + 1)
        answer) :
      Search g target level seen hops answer

/-- The level holds what is at a distance from `a`, and what is as near or nearer is seen. -/
structure Level (g : Graph) (a : NodeId) (level : List NodeId) (seen : NodeSet) (hops : Nat) :
    Prop where
  mem_level : ∀ x, x ∈ level ↔ g.Distance a x hops
  mem_seen : ∀ x, x ∈ seen ↔ ∃ n ≤ hops, g.Distance a x n

/-- The nodes that a search has not seen. -/
def hidden (g : Graph) (seen : NodeSet) : Finset NodeId :=
  g.adjacency.keys.toFinset.filter fun x => x ∉ seen

/-- A look for the shortest path from `a` to `b` ends, and tells their distance. -/
structure FindsShortest (g : Graph) (a b : NodeId) : Prop where
  /-- The search ends, with one answer. -/
  ends : ∃! answer, g.Search b [a] (Std.ExtTreeSet.empty.insert a) 0 answer
  /-- Between two different nodes the answer of the search is what is told. -/
  follows : g.contains a = true → g.contains b = true → a ≠ b →
    ∀ answer, g.Search b [a] (Std.ExtTreeSet.empty.insert a) 0 answer →
      g.shortestPath a b = .ok answer
  missing_iff : g.shortestPath a b = .error .missing ↔ g.contains a = false ∨ g.contains b = false
  ok_of_contains : g.contains a = true → g.contains b = true →
    ∃ answer, g.shortestPath a b = .ok answer
  some_iff : g.contains a = true → g.contains b = true →
    ∀ d, g.shortestPath a b = .ok (some d) ↔ a ≠ b ∧ g.Distance a b d
  none_iff : g.contains a = true → g.contains b = true →
    (g.shortestPath a b = .ok none ↔ a = b ∨ ∀ n, ¬ g.Walk a b n)
  /-- A distance that is told is positive, is below the number of nodes, and has no shorter walk. -/
  bounds : ∀ d, g.shortestPath a b = .ok (some d) →
    0 < d ∧ d < g.nodeCount ∧ g.Walk a b d ∧ ∀ n, g.Walk a b n → d ≤ n

variable {g : Graph} {a b c x target : NodeId} {level : List NodeId} {seen : NodeSet}
variable {hops rounds n d : Nat} {answer : Option Nat}

/-! ## Distances -/

theorem Walk.exists_distance (walk : g.Walk a b n) : ∃ d ≤ n, g.Distance a b d := by
  classical
  have least := Nat.isLeast_find ⟨n, walk⟩
  exact ⟨_, least.2 walk, least⟩

theorem distance_zero_iff : g.Distance a b 0 ↔ b = a := by
  constructor
  · rintro ⟨walk, -⟩
    cases walk
    rfl
  · rintro rfl
    exact ⟨.stay b, fun _ _ => Nat.zero_le _⟩

/-- An edge leads one hop further at most. -/
theorem Distance.adj (h : g.Distance a b n) (adj : g.Adj b c) : ∃ m ≤ n + 1, g.Distance a c m :=
  Walk.exists_distance (.step h.1 adj)

/-- The last edge of a shortest walk comes from one hop nearer. -/
theorem Distance.pred (h : g.Distance a c (n + 1)) : ∃ b, g.Distance a b n ∧ g.Adj b c := by
  obtain ⟨walk, least⟩ := h
  cases walk with
  | @step b _ _ before adj =>
    obtain ⟨d, le, near⟩ := before.exists_distance
    have reach : n + 1 ≤ d + 1 := least (Walk.step near.1 adj)
    have same : d = n := by omega
    subst same
    exact ⟨b, near, adj⟩

/-- A shortest walk passes every distance on its way. -/
theorem Distance.exists_of_le (h : g.Distance a b n) {m : Nat} (le : m ≤ n) :
    ∃ c, g.Distance a c m := by
  induction n generalizing b with
  | zero => exact ⟨b, by rwa [Nat.le_zero.1 le]⟩
  | succ n ih =>
    rcases Nat.le_succ_iff.1 le with le | rfl
    · obtain ⟨c, near, -⟩ := h.pred
      exact ih near le
    · exact ⟨b, h⟩

/-! ## Levels -/

theorem mem_seen_nextLevel (g : Graph) (level : List NodeId) (seen : NodeSet) (x : NodeId) :
    x ∈ (g.nextLevel level seen).2 ↔ (∃ a ∈ level, g.Adj a x) ∨ x ∈ seen := by
  simp [nextLevel, mem_seen_unseen, mem_around]

theorem level_start (g : Graph) (a : NodeId) :
    g.Level a [a] (Std.ExtTreeSet.empty.insert a) 0 where
  mem_level x := by
    rw [List.mem_singleton, distance_zero_iff]
  mem_seen x := by
    have alone : x ∈ (Std.ExtTreeSet.empty.insert a : NodeSet) ↔ x = a := by
      rw [NodeSet.mem_insert_iff]
      exact or_iff_left Std.ExtTreeSet.not_mem_empty
    rw [alone, ← distance_zero_iff (g := g)]
    constructor
    · intro h
      exact ⟨0, Nat.le_refl 0, h⟩
    · rintro ⟨n, le, h⟩
      rwa [Nat.le_zero.1 le] at h

/-- **One round.** -/
theorem Level.next (h : g.Level a level seen hops) :
    g.Level a (g.nextLevel level seen).1 (g.nextLevel level seen).2 (hops + 1) where
  mem_level x := by
    rw [mem_nextLevel, h.mem_seen]
    constructor
    · rintro ⟨⟨b, held, adj⟩, fresh⟩
      -- one hop further at most, and not nearer
      obtain ⟨m, le, dist⟩ := ((h.mem_level b).1 held).adj adj
      have same : m = hops + 1 := by
        by_contra other
        exact fresh ⟨m, by omega, dist⟩
      rwa [same] at dist
    · intro dist
      obtain ⟨b, near, adj⟩ := dist.pred
      refine ⟨⟨b, (h.mem_level b).2 near, adj⟩, ?_⟩
      rintro ⟨m, le, other⟩
      have same : m = hops + 1 := other.unique dist
      omega
  mem_seen x := by
    rw [mem_seen_nextLevel, h.mem_seen]
    constructor
    · rintro (⟨b, held, adj⟩ | ⟨m, le, dist⟩)
      · exact ((h.mem_level b).1 held).adj adj
      · exact ⟨m, by omega, dist⟩
    · rintro ⟨m, le, dist⟩
      rcases Nat.le_succ_iff.1 le with near | rfl
      · exact .inr ⟨m, near, dist⟩
      · obtain ⟨b, near, adj⟩ := dist.pred
        exact .inl ⟨b, (h.mem_level b).2 near, adj⟩

/-! ## The search -/

theorem Search.unique {other : Option Nat} (h : g.Search target level seen hops answer)
    (h' : g.Search target level seen hops other) : answer = other := by
  induction h generalizing other with
  | found here =>
    cases h' with
    | found => rfl
    | exhausted => cases here
    | onward apart => exact absurd here apart
  | exhausted =>
    cases h' with
    | found here => cases here
    | exhausted => rfl
    | onward _ more => exact absurd rfl more
  | onward apart more _ ih =>
    cases h' with
    | found here => exact absurd here apart
    | exhausted => exact absurd rfl more
    | onward _ _ rest => exact ih rest

/-- **The search is exact.**  From a level that the target is not nearer than, it answers with
the distance of the target, or not at all where there is none. -/
theorem Search.eq_some_iff (h : g.Search target level seen hops answer)
    (inv : g.Level a level seen hops) (early : ∀ n, g.Distance a target n → hops ≤ n) (d : Nat) :
    answer = some d ↔ g.Distance a target d := by
  induction h with
  | @found _ _ hops here =>
    have dist : g.Distance a target hops := (inv.mem_level target).1 here
    rw [Option.some_inj]
    constructor
    · rintro rfl
      exact dist
    · intro other
      exact dist.unique other
  | exhausted =>
    refine iff_of_false (by simp) fun dist => ?_
    -- a level without nodes cuts off everything behind it
    obtain ⟨c, between⟩ := dist.exists_of_le (early d dist)
    cases (inv.mem_level c).2 between
  | @onward _ _ hops _ apart _ _ ih =>
    refine ih inv.next fun n dist => ?_
    have le : hops ≤ n := early n dist
    have ne : n ≠ hops := by
      rintro rfl
      exact apart ((inv.mem_level target).2 dist)
    omega

/-! ## Rounds -/

theorem mem_hidden : x ∈ g.hidden seen ↔ g.contains x = true ∧ x ∉ seen := by
  unfold hidden
  rw [Finset.mem_filter, List.mem_toFinset, Std.ExtTreeMap.mem_keys]
  rfl

/-- Whatever a round finds was hidden before it, and is not afterwards. -/
theorem card_hidden_nextLevel (simple : g.Simple) (more : (g.nextLevel level seen).1 ≠ []) :
    (g.hidden (g.nextLevel level seen).2).card < (g.hidden seen).card := by
  obtain ⟨x, found⟩ := List.exists_mem_of_ne_nil _ more
  obtain ⟨⟨b, held, adj⟩, fresh⟩ := (mem_nextLevel g level seen x).1 found
  apply Finset.card_lt_card
  rw [Finset.ssubset_iff_of_subset]
  · refine ⟨x, mem_hidden.2 ⟨simple.closed b x adj, fresh⟩, fun still => ?_⟩
    exact (mem_hidden.1 still).2 ((mem_seen_nextLevel g level seen x).2 (.inl ⟨b, held, adj⟩))
  · intro y still
    obtain ⟨node, unseen⟩ := mem_hidden.1 still
    refine mem_hidden.2 ⟨node, fun was => unseen ?_⟩
    exact (mem_seen_nextLevel g level seen y).2 (.inr was)

/-- **The search ends.**  As many rounds as there are hidden nodes, and one more, are enough. -/
theorem search_levelOf (simple : g.Simple) (target : NodeId) (hops : Nat)
    (enough : level = [] ∨ (g.hidden seen).card < rounds) :
    g.Search target level seen hops (g.levelOf target rounds level seen hops) := by
  induction rounds generalizing level seen hops with
  | zero =>
    obtain rfl | few := enough
    · exact .exhausted
    · omega
  | succ rounds ih =>
    unfold levelOf
    by_cases here : target ∈ level
    · rw [if_pos (List.contains_iff_mem.2 here)]
      exact .found here
    rw [if_neg (fun held => here (List.contains_iff_mem.1 held))]
    by_cases last : level = []
    · subst last
      exact .exhausted
    rw [if_neg (fun none => last (List.isEmpty_iff.1 none))]
    refine .onward here last (ih (hops + 1) ?_)
    by_cases done : (g.nextLevel level seen).1 = []
    · exact .inl done
    · have fewer := card_hidden_nextLevel simple done
      have few := enough.resolve_left last
      exact .inr (by omega)

theorem levelOf_lt (h : g.levelOf target rounds level seen hops = some d) : d < hops + rounds := by
  induction rounds generalizing level seen hops with
  | zero => cases h
  | succ rounds ih =>
    unfold levelOf at h
    split at h
    · cases h
      omega
    · split at h
      · cases h
      · have lt := ih h
        omega

/-- Of as many nodes as there are, the start is not hidden. -/
theorem card_hidden_start (held : g.contains a = true) :
    (g.hidden (Std.ExtTreeSet.empty.insert a)).card < g.nodeCount := by
  have nodes : g.adjacency.keys.toFinset.card ≤ g.nodeCount := by
    refine (List.toFinset_card_le _).trans_eq ?_
    rw [Std.ExtTreeMap.length_keys]
    rfl
  refine (Finset.card_lt_card ?_).trans_le nodes
  rw [hidden, Finset.filter_ssubset]
  refine ⟨a, List.mem_toFinset.2 (Std.ExtTreeMap.mem_keys.2 held), not_not.2 ?_⟩
  exact NodeSet.mem_insert_iff.2 (.inl rfl)

theorem search_start (simple : g.Simple) (held : g.contains a = true) (b : NodeId) :
    g.Search b [a] (Std.ExtTreeSet.empty.insert a) 0
      (g.levelOf b g.nodeCount [a] (Std.ExtTreeSet.empty.insert a) 0) :=
  search_levelOf simple b 0 (.inr (card_hidden_start held))

/-- Also from a node that the graph does not have the search ends. -/
theorem exists_search (simple : g.Simple) (a b : NodeId) :
    ∃ answer, g.Search b [a] (Std.ExtTreeSet.empty.insert a) 0 answer :=
  ⟨_, search_levelOf simple b 0 (.inr (Nat.lt_succ_self _))⟩

/-! ## Shortest paths -/

theorem shortestPath_missing (out : g.contains a = false ∨ g.contains b = false) :
    g.shortestPath a b = .error .missing := by
  unfold shortestPath
  rw [if_neg]
  rw [Bool.and_eq_true]
  rintro ⟨ha, hb⟩
  obtain out | out := out
  · exact Bool.false_ne_true (out.symm.trans ha)
  · exact Bool.false_ne_true (out.symm.trans hb)

theorem shortestPath_self (held : g.contains a = true) : g.shortestPath a a = .ok none := by
  unfold shortestPath
  rw [held, Bool.and_self, if_pos rfl, if_pos rfl]

theorem shortestPath_eq_levelOf (ha : g.contains a = true) (hb : g.contains b = true)
    (ne : a ≠ b) : g.shortestPath a b =
      .ok (g.levelOf b g.nodeCount [a] (Std.ExtTreeSet.empty.insert a) 0) := by
  unfold shortestPath
  rw [ha, hb, Bool.and_self, if_pos rfl, if_neg ne]

/-- Between nodes there is an answer, and it is their distance. -/
theorem exists_shortestPath (simple : g.Simple) (ha : g.contains a = true)
    (hb : g.contains b = true) : ∃ answer, g.shortestPath a b = .ok answer ∧
      ∀ d, answer = some d ↔ a ≠ b ∧ g.Distance a b d := by
  by_cases same : a = b
  · subst same
    exact ⟨none, shortestPath_self ha, fun d => iff_of_false (by simp) fun h => h.1 rfl⟩
  · refine ⟨_, shortestPath_eq_levelOf ha hb same, fun d => ?_⟩
    rw [(search_start simple ha b).eq_some_iff (level_start g a) (fun n _ => n.zero_le)]
    exact (and_iff_right same).symm

/-- Only nodes have an answer. -/
theorem contains_of_shortestPath (ok : g.shortestPath a b = .ok answer) :
    g.contains a = true ∧ g.contains b = true := by
  by_contra out
  rw [not_and_or, Bool.not_eq_true, Bool.not_eq_true] at out
  rw [shortestPath_missing out] at ok
  cases ok

/-- A distance is below the number of nodes. -/
theorem shortestPath_lt (ok : g.shortestPath a b = .ok (some d)) : d < g.nodeCount := by
  obtain ⟨ha, hb⟩ := contains_of_shortestPath ok
  by_cases same : a = b
  · subst same
    rw [shortestPath_self ha] at ok
    cases ok
  · rw [shortestPath_eq_levelOf ha hb same] at ok
    have lt := levelOf_lt (Except.ok.inj ok)
    omega

/-! ## Top theorems -/

theorem Simple.findsShortest (simple : g.Simple) (a b : NodeId) : g.FindsShortest a b where
  ends := by
    obtain ⟨answer, search⟩ := exists_search simple a b
    exact ⟨answer, search, fun _ other => other.unique search⟩
  follows ha hb ne answer search := by
    rw [shortestPath_eq_levelOf ha hb ne, (search_start simple ha b).unique search]
  missing_iff := by
    constructor
    · intro missing
      by_contra held
      rw [not_or, Bool.not_eq_false, Bool.not_eq_false] at held
      obtain ⟨answer, ok, -⟩ := exists_shortestPath simple held.1 held.2
      rw [ok] at missing
      cases missing
    · exact shortestPath_missing
  ok_of_contains ha hb := by
    obtain ⟨answer, ok, -⟩ := exists_shortestPath simple ha hb
    exact ⟨answer, ok⟩
  some_iff ha hb d := by
    obtain ⟨answer, ok, exact⟩ := exists_shortestPath simple ha hb
    rw [ok, Except.ok.injEq, exact]
  none_iff ha hb := by
    obtain ⟨answer, ok, exact⟩ := exists_shortestPath simple ha hb
    rw [ok, Except.ok.injEq, Option.eq_none_iff_forall_ne_some]
    constructor
    · intro none
      by_contra joined
      rw [not_or, not_forall_not] at joined
      obtain ⟨ne, n, walk⟩ := joined
      obtain ⟨d, -, dist⟩ := walk.exists_distance
      exact none d ((exact d).2 ⟨ne, dist⟩)
    · rintro (same | apart) d found
      · exact ((exact d).1 found).1 same
      · exact apart d ((exact d).1 found).2.1
  bounds d ok := by
    obtain ⟨ha, hb⟩ := contains_of_shortestPath ok
    obtain ⟨answer, told, exact⟩ := exists_shortestPath simple ha hb
    obtain ⟨ne, walk, least⟩ := (exact d).1 (Except.ok.inj (told.symm.trans ok))
    refine ⟨Nat.pos_of_ne_zero ?_, shortestPath_lt ok, walk, fun n other => least other⟩
    rintro rfl
    exact ne (distance_zero_iff.1 ⟨walk, least⟩).symm

/-- **A look for a shortest path always ends, and finds the distance.** -/
theorem shortestPath_of_run (actions : List GraphAction) (a b : NodeId) :
    ((∅ : Graph).run actions).2.FindsShortest a b :=
  (simple_run actions).findsShortest a b

/-- Two ways round a cycle of four nodes, and a node that none of them reaches. -/
example :
    let g := (∅ : Graph).replay [.addNode 1, .addNode 2, .addNode 3, .addNode 4, .addNode 5,
      .addEdge 1 2, .addEdge 2 3, .addEdge 3 4, .addEdge 4 1]
    g.shortestPath 1 3 = .ok (some 2) ∧ g.shortestPath 1 5 = .ok none := by decide

end Graph

end DurableGraph
