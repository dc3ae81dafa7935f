import Pipework.Proofs.Graph.Naming

/-!
# When ids run out

A graph that has the base of a request and the base with every number below the bound has no id left
for the request, even if the number at the bound would be free: the search for an id ends before it
(`Thread.exhausted_run_iff`).
-/

namespace Pipework

namespace Graph

variable {g : Graph} {slot : Slot} {r : InvocationRequest} {pipeline base base' : String}
  {allowSuffix : Bool} {n last : Nat}

/-- The search for a number fails if and only if all numbers before its end are taken. -/
theorem freeSuffix?_eq_none_iff {taken : String → Bool} {count : Nat} :
    freeSuffix? taken base count n = none ↔
      ∀ m, n ≤ m → m < n + count → taken (suffixed base m) = true := by
  induction count generalizing n with
  | zero =>
    refine iff_of_true rfl ?_
    intro m hle hlt
    omega
  | succ count ih =>
    rw [freeSuffix?]
    by_cases htaken : taken (suffixed base n) = true
    · rw [if_pos htaken, ih]
      constructor
      · intro h m hle hlt
        rcases Nat.eq_or_lt_of_le hle with rfl | hle
        · exact htaken
        · exact h m hle (by omega)
      · intro h m hle hlt
        exact h m (by omega) (by omega)
    · rw [if_neg htaken]
      refine iff_of_false (Option.some_ne_none _) ?_
      intro h
      exact htaken (h n (Nat.le_refl n) (by omega))

/-- The base and the base with every number from two up to the last one are ids of the graph. -/
structure Exhausted (g : Graph) (base : String) (last : Nat) : Prop where
  clash : base ∈ g.ids
  numbers : ∀ n, 2 ≤ n → n ≤ last → suffixed base n ∈ g.ids

theorem exhausted_succ_iff (h : 1 ≤ last) :
    g.Exhausted base (last + 1) ↔ g.Exhausted base last ∧ suffixed base (last + 1) ∈ g.ids := by
  constructor
  · intro hexhausted
    refine ⟨⟨hexhausted.clash, ?_⟩, hexhausted.numbers (last + 1) (by omega) (Nat.le_refl _)⟩
    intro n hle hlast
    exact hexhausted.numbers n hle (by omega)
  · rintro ⟨hexhausted, hnext⟩
    refine ⟨hexhausted.clash, ?_⟩
    intro n hle hlast
    rcases Nat.eq_or_lt_of_le hlast with rfl | hlt
    · exact hnext
    · exact hexhausted.numbers n hle (by omega)

/-- The last number that is tried is the one before the bound. -/
theorem Coherent.freeId_eq_exhaustion_iff (h : g.Coherent) :
    g.freeId base allowSuffix = .error (.identifierExhaustion pipeline base') ↔
      (pipeline = g.pipeline ∧ base' = base) ∧ allowSuffix = true
        ∧ g.Exhausted base (suffixBound - 1) := by
  have hbound (n : Nat) : n < 2 + (suffixBound - 2) ↔ n ≤ suffixBound - 1 := by
    simp only [suffixBound]
    omega
  have hsearch : freeSuffix? g.contains base (suffixBound - 2) 2 = none ↔
      ∀ n, 2 ≤ n → n ≤ suffixBound - 1 → suffixed base n ∈ g.ids := by
    simp only [freeSuffix?_eq_none_iff, hbound, h.contains_iff]
  rw [freeId]
  constructor
  · intro hfree
    split at hfree
    · cases hfree
    · rename_i hclash
      split at hfree
      · cases hfree
      · rename_i hallowed
        split at hfree
        · cases hfree
        · rename_i hnone
          cases hfree
          refine ⟨⟨rfl, rfl⟩, by simpa using hallowed, ?_, hsearch.1 hnone⟩
          exact h.contains_iff.1 (by simpa using hclash)
  · rintro ⟨⟨rfl, rfl⟩, rfl, hexhausted⟩
    have hclash : g.contains base' = true := h.contains_iff.2 hexhausted.clash
    simp [hclash, hsearch.2 hexhausted.numbers]

/-- Nothing but its id can speak against a request. -/
structure Admits (g : Graph) (slot : Slot) (r : InvocationRequest) : Prop where
  isOpen : g.isOpen slot = true
  native : ∀ a ∈ r.inputs.values, a.pass = g.pass
  known : ∀ p ∈ r.allPredecessors.keys, g.contains p = true

/-- Against a step without inputs nothing can be said while the graph is open. -/
theorem admits_step (step : Step) (hopen : g.isOpen slot = true) : g.Admits slot { step } :=
  ⟨hopen, fun _ ha => absurd ha List.not_mem_nil, fun _ hp => absurd hp List.not_mem_nil⟩

theorem Admits.accepts {id : String} (h : g.Admits slot r)
    (hfree : g.freeId r.baseId r.allowSuffix = .ok id) : g.Accepts slot r id :=
  ⟨h.isOpen, h.native, h.known, hfree⟩

theorem add_eq_exhaustion_iff :
    g.add slot r = .error (.identifierExhaustion pipeline base) ↔ g.Admits slot r
      ∧ g.freeId r.baseId r.allowSuffix = .error (.identifierExhaustion pipeline base) := by
  rw [add_eq]
  constructor
  · intro h
    split at h
    · cases h
    · rename_i hopen
      split at h
      all_goals try cases h
      rename_i hinput hunknown hfree
      exact ⟨⟨by simpa using hopen, foreignInput?_eq_none_iff.1 hinput,
        unknown?_eq_none_iff.1 hunknown⟩, hfree⟩
  · rintro ⟨hadmits, hfree⟩
    rw [foreignInput?_eq_none_iff.2 hadmits.native, unknown?_eq_none_iff.2 hadmits.known, hfree,
      hadmits.isOpen]
    rfl

/-! ## Graphs that are asked for one base only -/

theorem Coherent.freeId_of_candidates (h : g.Coherent)
    (hids : g.ids = (List.range n).map (candidate base)) (hn : n + 1 < suffixBound) :
    g.freeId base true = .ok (candidate base n) := by
  apply freeId_eq_ok_iff.2
  constructor
  · simpa only [h.contains_iff, hids] using firstFree_candidate (.inr rfl)
  · cases n with
    | zero => exact .inl rfl
    | succ n => exact .inr ⟨n + 2, hn, rfl⟩

theorem exhausted_iff_of_candidates (hids : g.ids = (List.range n).map (candidate base))
    (hlast : 1 ≤ last) : g.Exhausted base last ↔ last ≤ n := by
  have hbase : base ∈ g.ids ↔ 0 < n := by
    rw [hids]
    exact candidate_mem_iff (m := 0)
  have hnumber (m : Nat) : suffixed base (m + 2) ∈ g.ids ↔ m + 1 < n := by
    rw [hids]
    exact candidate_mem_iff (m := m + 1)
  constructor
  · rintro ⟨hfirst, hnumbers⟩
    rcases Nat.lt_or_ge last 2 with hlt | hle
    · have := hbase.1 hfirst
      omega
    · obtain ⟨m, rfl⟩ := Nat.exists_eq_add_of_le' hle
      have := (hnumber m).1 (hnumbers _ hle (Nat.le_refl _))
      omega
  · intro hle
    refine ⟨hbase.2 (by omega), ?_⟩
    intro m htwo hm
    obtain ⟨m, rfl⟩ := Nat.exists_eq_add_of_le' htwo
    exact (hnumber m).2 (by omega)

end Graph

namespace Thread

variable {t : Thread} {place count : Nat} {g : Graph} {r : InvocationRequest} {ops : List Op}

theorem step_add_eq_error_iff {cause : GraphError} :
    (t.step (.add place r)).1 = .error cause ↔
      ∃ g, t.graphs[place]? = some g ∧ g.add t.slot r = .error cause := by
  rw [step]
  cases hg : t.graphs[place]? with
  | none => simp
  | some g => rcases hadd : g.add t.slot r with cause' | ⟨g', id⟩ <;> simp [hadd]

/-- There is no id left for a request. -/
def RunsOut (t : Thread) (place : Nat) (r : InvocationRequest) : Prop :=
  ∃ pipeline base, (t.step (.add place r)).1 = .error (.identifierExhaustion pipeline base)

theorem step_add_eq_exhaustion_iff {pipeline base : String}
    (hg : (run {} ops).graphs[place]? = some g) :
    ((run {} ops).step (.add place r)).1 = .error (.identifierExhaustion pipeline base)
      ↔ (pipeline = g.pipeline ∧ base = r.baseId) ∧ g.Admits (run {} ops).slot r
        ∧ r.allowSuffix = true ∧ g.Exhausted r.baseId (Graph.suffixBound - 1) := by
  have hcoherent := coherent_of_mem_run (List.mem_of_getElem? hg)
  rw [step_add_eq_error_iff]
  simp only [hg, Option.some.injEq, exists_eq_left', Graph.add_eq_exhaustion_iff,
    hcoherent.freeId_eq_exhaustion_iff]
  exact and_left_comm

theorem runsOut_iff (hg : (run {} ops).graphs[place]? = some g) :
    (run {} ops).RunsOut place r ↔ g.Admits (run {} ops).slot r ∧ r.allowSuffix = true
      ∧ g.Exhausted r.baseId (Graph.suffixBound - 1) := by
  simp [RunsOut, step_add_eq_exhaustion_iff hg]

/-- A request fails for lack of an id if and only if nothing else speaks against it, it allows
numbers, and the graph has its base alone and with all numbers from two on that are below the bound.
Were the bound itself tried as well, another outcome would come of it just where that is the only
number left. -/
theorem exhausted_run_iff (ops : List Op) (r : InvocationRequest)
    (hg : (run {} ops).graphs[place]? = some g) :
    (∀ pipeline base,
      ((run {} ops).step (.add place r)).1 = .error (.identifierExhaustion pipeline base)
        ↔ (pipeline = g.pipeline ∧ base = r.baseId) ∧ g.Admits (run {} ops).slot r
          ∧ r.allowSuffix = true ∧ g.Exhausted r.baseId (Graph.suffixBound - 1))
    ∧ (g.Admits (run {} ops).slot r → r.allowSuffix = true →
        (((run {} ops).RunsOut place r ↔ g.Exhausted r.baseId Graph.suffixBound)
          ↔ ¬ (g.Exhausted r.baseId (Graph.suffixBound - 1)
            ∧ Graph.suffixed r.baseId Graph.suffixBound ∉ g.ids))) := by
  refine ⟨fun pipeline base => step_add_eq_exhaustion_iff hg, ?_⟩
  intro hadmits hallowed
  have hruns : (run {} ops).RunsOut place r ↔ g.Exhausted r.baseId (Graph.suffixBound - 1) := by
    simp [runsOut_iff hg, hadmits, hallowed]
  have hnext : g.Exhausted r.baseId Graph.suffixBound
      ↔ g.Exhausted r.baseId (Graph.suffixBound - 1)
        ∧ Graph.suffixed r.baseId Graph.suffixBound ∈ g.ids :=
    Graph.exhausted_succ_iff (by decide)
  rw [hruns, hnext]
  grind

/-- A graph that is asked for one step again and again. -/
def crowding (count : Nat) : List Op :=
  .new "training" (.ofNat 1) true :: List.replicate count (.add 0 { step := loader })

/-- All requests are accepted as long as there are numbers below the bound. -/
theorem exists_run_crowding (h : count < Graph.suffixBound) :
    ∃ g, run {} (crowding count) = { graphs := [g] } ∧ g.detached = true
      ∧ g.ids = (List.range count).map (Graph.candidate "loader") := by
  induction count with
  | zero => exact ⟨_, rfl, rfl, rfl⟩
  | succ count ih =>
    obtain ⟨g, hrun, hdetached, hids⟩ := ih (by omega)
    have hmem : g ∈ (run {} (crowding count)).graphs := by
      simp [hrun]
    have hcoherent := coherent_of_mem_run hmem
    have hopen : g.isOpen none = true := by simp [Graph.isOpen, hdetached]
    have haccepts : g.Accepts none { step := loader } (Graph.candidate "loader" count) :=
      (Graph.admits_step loader hopen).accepts (hcoherent.freeId_of_candidates hids h)
    have hadd := Graph.add_eq_ok_iff.2 ⟨haccepts, rfl⟩
    refine ⟨g.push (.ofRequest (Graph.candidate "loader" count) { step := loader }), ?_, hdetached,
      ?_⟩
    · have hsnoc : crowding (count + 1) = crowding count ++ [.add 0 { step := loader }] := by
        rw [crowding, List.replicate_succ', ← List.cons_append]
        rfl
      rw [hsnoc, run_concat, hrun]
      simp [step, hadd]
    · rw [Graph.ids_push, hids, List.range_succ, List.map_append]
      rfl

/-- After 9999 requests for one step the numbers below the bound are used up. -/
theorem exists_crowded : ∃ g, (run {} (crowding 9999)).graphs[0]? = some g
    ∧ g.Admits (run {} (crowding 9999)).slot { step := loader }
    ∧ g.Exhausted "loader" (Graph.suffixBound - 1)
    ∧ Graph.suffixed "loader" Graph.suffixBound ∉ g.ids := by
  have hbound : 9999 < Graph.suffixBound := by decide
  obtain ⟨g, hrun, hdetached, hids⟩ := exists_run_crowding hbound
  have hcandidates {last : Nat} (hlast : 1 ≤ last) : g.Exhausted "loader" last ↔ last ≤ 9999 :=
    Graph.exhausted_iff_of_candidates hids hlast
  have hexhausted : g.Exhausted "loader" (Graph.suffixBound - 1) :=
    (hcandidates (by decide)).2 (Nat.le_refl _)
  have hopen : g.isOpen none = true := by simp [Graph.isOpen, hdetached]
  rw [hrun]
  refine ⟨g, rfl, Graph.admits_step loader hopen, hexhausted, ?_⟩
  intro hmem
  have hall : g.Exhausted "loader" Graph.suffixBound :=
    (Graph.exhausted_succ_iff (by decide)).2 ⟨hexhausted, hmem⟩
  exact absurd ((hcandidates (by decide)).1 hall) (by decide)

/-- One more request is refused, though the number ten thousand would be free. -/
theorem exhausted_run_iff_crowded :
    ∃ g, (run {} (crowding 9999)).graphs[0]? = some g
      ∧ g.Admits (run {} (crowding 9999)).slot { step := loader } ∧ "loader_10000" ∉ g.ids
      ∧ ((run {} (crowding 9999)).step (.add 0 { step := loader })).1
        = .error (.identifierExhaustion g.pipeline "loader")
      ∧ ¬ ((run {} (crowding 9999)).RunsOut 0 { step := loader }
        ↔ g.Exhausted "loader" Graph.suffixBound) := by
  obtain ⟨g, hg, hadmits, hexhausted, hfree⟩ := exists_crowded
  have hnumber : Graph.suffixed "loader" Graph.suffixBound = "loader_10000" := by decide +kernel
  obtain ⟨hfails, hdocumented⟩ := exhausted_run_iff (crowding 9999) { step := loader } hg
  refine ⟨g, hg, hadmits, hnumber ▸ hfree, (hfails _ _).2 ⟨⟨rfl, rfl⟩, hadmits, rfl, hexhausted⟩,
    ?_⟩
  intro hiff
  exact (hdocumented hadmits rfl).1 hiff ⟨hexhausted, hfree⟩

/-- A request may fail for lack of an id though the number at the bound is free. -/
theorem not_forall_exhausted_run :
    ¬ ∀ (ops : List Op) (place : Nat) (g : Graph) (r : InvocationRequest),
      (run {} ops).graphs[place]? = some g → g.Admits (run {} ops).slot r →
      r.allowSuffix = true →
      ((run {} ops).RunsOut place r ↔ g.Exhausted r.baseId Graph.suffixBound) := by
  intro h
  obtain ⟨g, hg, hadmits, hexhausted, hfree⟩ := exists_crowded
  have hruns : (run {} (crowding 9999)).RunsOut 0 { step := loader } :=
    (runsOut_iff hg).2 ⟨hadmits, rfl, hexhausted⟩
  have hall := (h (crowding 9999) 0 g { step := loader } hg hadmits rfl).1 hruns
  exact hfree (hall.numbers Graph.suffixBound (by decide) (Nat.le_refl _))

end Thread

end Pipework
