import EntityQuery.Compiled.Basic

/-!
# Binding the markers of a statement

The writer leaves one `?` marker for each use of a parameter and names, for each marker in
text order, the slot of its parameter. `Graph.bindMarkers` then numbers the markers from one:
each marker gives one binding, its parameter's source with its ordinal, and each parameter
collects the ordinals of its own markers.

`bindMarkers_spec` states the whole result when every marker names a slot of the graph: the
bindings follow the markers one for one, each parameter gains exactly the ordinals of its
markers in increasing order, and nothing else of the graph changes. It is proved through
`foldl_bindStep`, the invariant of the fold over any list of markers.
-/

namespace EntityQuery

namespace Graph

/-- One step of `bindMarkers`: the marker at `position` binds the argument `index`, if the
graph has one. -/
def bindStep (acc : Graph × List ArgBinding) (marker : Nat × Nat) : Graph × List ArgBinding :=
  let (position, index) := marker
  let (g, bindings) := acc
  let ordinal := position + 1
  match g.arguments[index]? with
  | some arg =>
    ({ g with arguments := g.arguments.set! index { arg with sqlOrdinals := arg.sqlOrdinals ++ [ordinal] } },
      bindings ++ [{ source := arg.source, sqlOrdinal := ordinal }])
  | none => (g, bindings)

theorem bindMarkers_eq (g : Graph) (markers : List Nat) :
  g.bindMarkers markers = ((List.range markers.length).zip markers).foldl bindStep (g, [])
  := rfl

/-- Binding the markers `ps`, each a position and an argument index: only the arguments
change, each keeping its source and gaining the ordinals of its markers in order, and each
marker of an argument of the graph adds its binding. -/
theorem foldl_bindStep (ps : List (Nat × Nat)) (g : Graph) (bs : List ArgBinding) :
  let r := ps.foldl bindStep (g, bs)
  r.1 = { g with arguments := r.1.arguments } ∧
  r.1.arguments.size = g.arguments.size ∧
  (∀ i : Nat, (r.1.arguments[i]?).map (·.source) = (g.arguments[i]?).map (·.source)) ∧
  (∀ i : Nat, (r.1.arguments[i]?).map (·.sqlOrdinals) =
      (g.arguments[i]?).map fun a => a.sqlOrdinals ++ (ps.filter (·.2 == i)).map (·.1 + 1)) ∧
  r.2 = bs ++ ps.filterMap fun (k, i) =>
      ((g.arguments[i]?).map (·.source)).map fun s => ({ source := s, sqlOrdinal := k + 1 } : ArgBinding)
  := by
  induction ps generalizing g bs with
  | nil => simp
  | cons p ps ih =>
    obtain ⟨k, i⟩ := p
    cases ha : g.arguments[i]? with
    | none =>
      have hstep : bindStep (g, bs) (k, i) = (g, bs) := by simp [bindStep, ha]
      obtain ⟨hg, hsize, hsrc, hords, hbs⟩ := ih g bs
      simp only [List.foldl_cons, hstep]
      refine ⟨hg, hsize, hsrc, ?_, ?_⟩
      · intro j
        rw [hords j]
        by_cases hij : i = j
        · subst hij
          simp [ha]
        · simp [hij]
      · simp [hbs, ha]
    | some a =>
      have hi : i < g.arguments.size := by
        rcases Array.getElem?_eq_some_iff.mp ha with ⟨hi, -⟩
        exact hi
      have hstep : bindStep (g, bs) (k, i) =
          ({ g with arguments := g.arguments.set! i { a with sqlOrdinals := a.sqlOrdinals ++ [k + 1] } },
            bs ++ [⟨a.source, k + 1⟩]) := by
        simp [bindStep, ha]
      have hget : ∀ j, (g.arguments.set! i { a with sqlOrdinals := a.sqlOrdinals ++ [k + 1] })[j]? =
          if i = j then some { a with sqlOrdinals := a.sqlOrdinals ++ [k + 1] } else g.arguments[j]? := by
        intro j
        simp [Array.getElem?_setIfInBounds, hi]
      generalize ha' : { a with sqlOrdinals := a.sqlOrdinals ++ [k + 1] } = a' at hstep hget
      generalize hg' : ({ g with arguments := g.arguments.set! i a' } : Graph) = g' at hstep
      have hget' : ∀ j, g'.arguments[j]? = if i = j then some a' else g.arguments[j]? := by
        intro j
        rw [← hg']
        exact hget j
      obtain ⟨hg, hsize, hsrc, hords, hbs⟩ := ih g' (bs ++ [⟨a.source, k + 1⟩])
      have hsrc' : ∀ j : Nat, (g'.arguments[j]?).map (·.source) =
          (g.arguments[j]?).map (·.source) := by
        intro j
        rw [hget' j]
        split
        · subst_vars
          simp [ha]
        · rfl
      simp only [List.foldl_cons, hstep]
      refine ⟨?_, ?_, fun j => (hsrc j).trans (hsrc' j), ?_, ?_⟩
      · rw [hg, ← hg']
      · rw [hsize, ← hg']
        simp
      · intro j
        rw [hords j, hget' j]
        split
        · subst_vars
          simp [ha]
        · rename_i hij
          simp [hij]
      · rw [hbs]
        simp [ha, hsrc']

/-- The positions of the markers of `i`, counted from `s`: the pairs of positions and markers
whose marker is `i` are those whose position holds `i`. -/
theorem zip_range'_filter (i : Nat) :
    ∀ (ms : List Nat) (s : Nat),
      (((List.range' s ms.length).zip ms).filter (·.2 == i)).map (·.1) =
        (List.range' s ms.length).filter (fun k => ms[k - s]? == some i)
  | [], _ => rfl
  | m :: ms, s => by
    have hrest : (List.range' (s + 1) ms.length).filter (fun k => (m :: ms)[k - s]? == some i) =
        (List.range' (s + 1) ms.length).filter (fun k => ms[k - (s + 1)]? == some i) := by
      apply List.filter_congr
      intro k hk
      have hsk : k - s = (k - (s + 1)) + 1 := by
        have := (List.mem_range'_1.mp hk).1
        omega
      rw [hsk, List.getElem?_cons_succ]
    rw [List.length_cons, List.range'_succ, List.zip_cons_cons, List.filter_cons,
      List.filter_cons, hrest, ← zip_range'_filter i ms (s + 1)]
    by_cases hm : m = i <;> simp [hm]

/-- Markers that each name a parameter of `g` each add one binding. -/
theorem filterMap_bindings (g : Graph) :
    ∀ ps : List (Nat × Nat), (∀ p ∈ ps, p.2 < g.arguments.size) →
      (ps.filterMap fun (k, i) =>
          ((g.arguments[i]?).map (·.source)).map fun s => ({ source := s, sqlOrdinal := k + 1 } : ArgBinding)) =
        ps.map fun (k, i) => ⟨(g.arguments.getD i default).source, k + 1⟩
  | [], _ => rfl
  | (k, i) :: ps, h => by
    have hi : i < g.arguments.size := h (k, i) (by simp)
    rw [List.filterMap_cons, List.map_cons, filterMap_bindings g ps fun p hp => h p (by simp [hp])]
    simp [Array.getElem?_eq_getElem hi, Array.getD_eq_getD_getElem?]

/-- Binding markers that each name a parameter of the graph. The bindings follow the markers
in text order, each with its parameter's source and its 1-based ordinal; each parameter keeps
its source and gains the ordinals of its own markers, in increasing order; nothing else of the
graph changes. -/
theorem bindMarkers_spec (g : Graph) (markers : List Nat)
    (h : ∀ i ∈ markers, i < g.arguments.size) :
  let r := g.bindMarkers markers
  r.1 = { g with arguments := r.1.arguments } ∧
  r.1.arguments.size = g.arguments.size ∧
  r.2.length = markers.length ∧
  (∀ k (hk : k < markers.length), ∃ hi : markers[k] < g.arguments.size,
      r.2[k]? = some ⟨g.arguments[markers[k]].source, k + 1⟩) ∧
  ∀ i (hi : i < g.arguments.size), r.1.arguments[i]? = some { g.arguments[i] with
      sqlOrdinals := g.arguments[i].sqlOrdinals ++
        ((List.range markers.length).filter (markers[·]? == some i)).map (· + 1) }
  := by
  obtain ⟨hg, hsize, hsrc, hords, hbs⟩ :=
    foldl_bindStep ((List.range markers.length).zip markers) g []
  have hzip : ∀ p ∈ (List.range markers.length).zip markers, p.2 < g.arguments.size :=
    fun p hp => h p.2 (List.of_mem_zip hp).2
  rw [List.nil_append, filterMap_bindings g _ hzip] at hbs
  rw [bindMarkers_eq]
  refine ⟨hg, hsize, by simp [hbs], ?_, ?_⟩
  · intro k hk
    have hi := h _ (List.getElem_mem hk)
    refine ⟨hi, ?_⟩
    have hkz : k < ((List.range markers.length).zip markers).length := by simp [hk]
    rw [hbs, List.getElem?_map, List.getElem?_eq_getElem hkz]
    simp [Array.getD_eq_getD_getElem?, Array.getElem?_eq_getElem hi]
  · intro i hi
    have hri : i < (List.foldl bindStep (g, []) ((List.range markers.length).zip markers)).1.arguments.size := by
      rw [hsize]
      exact hi
    have hs := hsrc i
    have ho := hords i
    rw [Array.getElem?_eq_getElem hri, Array.getElem?_eq_getElem hi] at hs ho
    simp only [Option.map_some, Option.some.injEq] at hs ho
    rw [Array.getElem?_eq_getElem hri]
    congr 1
    have hpos := zip_range'_filter i markers 0
    simp only [Nat.sub_zero, ← List.range_eq_range'] at hpos
    cases hr : (List.foldl bindStep (g, []) ((List.range markers.length).zip markers)).1.arguments[i]
    rw [hr] at hs ho
    simp only at hs ho
    rw [hs, ho, ← hpos, List.map_map]
    rfl

end Graph

end EntityQuery
