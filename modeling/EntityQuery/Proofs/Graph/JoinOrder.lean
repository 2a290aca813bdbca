import Mathlib
import EntityQuery.Proofs.Graph.Optimized

/-!
# Outer joins follow their parents

`Graph.reorderOuter` rebuilds a FROM list from the trees of outer joins: each item that is not
outer-joined to an item of the list is a root, and after each root come the items outer-joined
to it, each followed by its own, in the order of the list (`Graph.placeOuter`). In a
well-formed graph this is a valid join order (`Graph.reorderOuter_joinOrder`):

* it is a permutation of the list. The trees share no item (`Graph.nodup_reorderOuter`), and
  they hold every item of the list: following outer parents from an item ends at a root, since
  the joins are acyclic (`Graph.exists_outerRoot`), and the fuel of `placeOuter` exceeds the
  number of items below any item, which falls at each level (`Graph.card_outerBelow_lt`);
* the roots keep their order, since a tree holds one root, its own;
* an item outer-joined to a parent comes after it, with only items below the parent between
  them (`Graph.placeOuter_split`), and every item below another is joined with outer
  semantics. So no comma of the FROM clause the writer makes separates an outer join from its
  parent.
-/

namespace EntityQuery

namespace Graph

variable {g : Graph} {list : List FromId}

/-! ### The trees of outer joins -/

/-- The parent an item is outer-joined to is an item of the list. -/
theorem mem_of_outerChild {p c : FromId} (h : g.OuterChild list p c) : p ∈ list := by
  unfold OuterChild outerParent at h
  dsimp only at h
  split at h
  · cases h
  · split at h
    · split at h
      · rename_i hp
        cases h
        exact List.contains_iff_mem.mp hp
      · cases h
    · cases h

/-- An item outer-joined to a parent is joined with outer semantics. -/
theorem isOuter_of_outerChild {p c : FromId} (h : g.OuterChild list p c) : (g.item c).isOuter := by
  unfold OuterChild outerParent at h
  dsimp only at h
  split at h
  · cases h
  · rename_i hout
    simpa using hout

/-- An item below another one has an outer parent in the list, so it is no root. -/
theorem outerParent_of_transGen {r y : FromId} (h : Relation.TransGen (g.OuterChild list) r y) :
  (g.outerParent list y).isNone = false
  := by
  obtain ⟨z, -, hzy⟩ := Relation.TransGen.tail'_iff.mp h
  rw [show g.outerParent list y = some z from hzy]
  rfl

/-- Every item from which a chain of outer joins leads to an item of the list is in the list:
each step starts from a parent, which is in the list. -/
theorem mem_of_reflTransGen {c y : FromId} (h : Relation.ReflTransGen (g.OuterChild list) c y)
    (hy : y ∈ list) :
  c ∈ list
  := by
  induction h with
  | refl => exact hy
  | tail _ hbz ih => exact ih (mem_of_outerChild hbz)

open Classical in
/-- The items of the list below `r` in the trees of outer joins. -/
noncomputable def outerBelow (g : Graph) (list : List FromId) (r : FromId) : Finset FromId :=
  list.toFinset.filter fun y => Relation.TransGen (g.OuterChild list) r y

open Classical in
theorem mem_outerBelow {r y : FromId} :
  y ∈ g.outerBelow list r ↔ y ∈ list ∧ Relation.TransGen (g.OuterChild list) r y
  := by
  unfold outerBelow
  rw [Finset.mem_filter, List.mem_toFinset]

open Classical in
/-- At most every item of the list is below an item. -/
theorem card_outerBelow_le (r : FromId) : (g.outerBelow list r).card ≤ list.length :=
  (Finset.card_filter_le _ _).trans (List.toFinset_card_le list)

/-- Fewer items are below a child than below its parent: the child itself is below the parent
only. -/
theorem card_outerBelow_lt (hwf : WellFounded g.JoinParent) {r c : FromId}
    (hc : g.OuterChild list r c) (hcl : c ∈ list) :
  (g.outerBelow list c).card < (g.outerBelow list r).card
  := by
  apply Finset.card_lt_card
  refine Finset.ssubset_iff_of_subset (fun y hy => ?_) |>.mpr ⟨c, ?_, ?_⟩
  · obtain ⟨hyl, hcy⟩ := mem_outerBelow.mp hy
    exact mem_outerBelow.mpr ⟨hyl, Relation.TransGen.head hc hcy⟩
  · exact mem_outerBelow.mpr ⟨hcl, .single hc⟩
  · exact fun hcc => not_transGen_outerChild hwf c (mem_outerBelow.mp hcc).2

/-- The tree below `r` holds every item of the list below `r`, given more fuel than there are
such items; each level down uses one unit of fuel and leaves fewer items below. -/
theorem mem_placeOuter_of_reflTransGen (hwf : WellFounded g.JoinParent) (n : Nat) {r y : FromId}
    (hn : (g.outerBelow list r).card ≤ n) (hry : Relation.ReflTransGen (g.OuterChild list) r y)
    (hy : y ∈ list) :
  y ∈ g.placeOuter list n r
  := by
  induction n generalizing r with
  | zero =>
    rcases hry.cases_head with rfl | ⟨c, hc, hcy⟩
    · simp [placeOuter]
    · have hbelow : y ∈ g.outerBelow list r :=
        mem_outerBelow.mpr ⟨hy, Relation.TransGen.head' hc hcy⟩
      have := Finset.card_pos.mpr ⟨y, hbelow⟩
      omega
  | succ n ih =>
    rcases hry.cases_head with rfl | ⟨c, hc, hcy⟩
    · exact List.mem_cons_self ..
    · have hcl : c ∈ list := mem_of_reflTransGen hcy hy
      have hlt := card_outerBelow_lt hwf hc hcl
      rw [placeOuter]
      refine List.mem_cons_of_mem _ (List.mem_flatMap.mpr ⟨c, ?_, ih (by omega) hcy⟩)
      exact List.mem_filter.mpr ⟨hcl, by simpa [OuterChild] using hc⟩

/-- Following outer parents from an item of the list ends at a root of the list. -/
theorem exists_outerRoot (hwf : WellFounded g.JoinParent) {y : FromId} (hy : y ∈ list) :
  ∃ r ∈ list, (g.outerParent list r).isNone ∧ Relation.ReflTransGen (g.OuterChild list) r y
  := by
  induction y using hwf.induction with
  | _ y ih =>
    cases hp : g.outerParent list y with
    | none => exact ⟨y, hy, by simp [hp], .refl⟩
    | some p =>
      have hpy : g.OuterChild list p y := hp
      obtain ⟨r, hrl, hroot, hrp⟩ := ih p (joinParent_of_outerChild hpy) (mem_of_outerChild hpy)
      exact ⟨r, hrl, hroot, hrp.tail hpy⟩

/-- A root heads its tree and is its only root. -/
theorem filter_placeOuter {r : FromId} (hr : (g.outerParent list r).isNone) (n : Nat) :
  (g.placeOuter list n r).filter (fun f => (g.outerParent list f).isNone) = [r]
  := by
  cases n with
  | zero => simp [placeOuter, hr]
  | succ n =>
    rw [placeOuter, List.filter_cons_of_pos (p := fun f => (g.outerParent list f).isNone) hr,
      List.filter_eq_nil_iff.mpr]
    intro y hy
    obtain ⟨c, hc, hyc⟩ := List.mem_flatMap.mp hy
    have hrc : g.OuterChild list r c := by simpa [OuterChild] using (List.mem_filter.mp hc).2
    simp [outerParent_of_transGen (Relation.TransGen.head' hrc (mem_placeOuter hyc).1)]

/-- Each item of the tree below `r` heads a block of it that is its own tree, with enough fuel
left to hold every item of the list below it. -/
theorem placeOuter_split (hwf : WellFounded g.JoinParent) (n : Nat) {r p : FromId}
    (hn : (g.outerBelow list r).card ≤ n) (hp : p ∈ g.placeOuter list n r) :
  ∃ m pre post, (g.outerBelow list p).card ≤ m ∧
    g.placeOuter list n r = pre ++ g.placeOuter list m p ++ post
  := by
  induction n generalizing r with
  | zero =>
    rw [placeOuter, List.mem_singleton] at hp
    subst hp
    exact ⟨0, [], [], hn, by simp⟩
  | succ n ih =>
    rw [placeOuter] at hp
    rcases List.mem_cons.mp hp with rfl | hp
    · exact ⟨n + 1, [], [], hn, by simp⟩
    · obtain ⟨c, hc, hpc⟩ := List.mem_flatMap.mp hp
      obtain ⟨hcl, hcr⟩ := List.mem_filter.mp hc
      have hrc : g.OuterChild list r c := by simpa [OuterChild] using hcr
      have hlt := card_outerBelow_lt hwf hrc hcl
      obtain ⟨m, pre, post, hm, hsplit⟩ := ih (by omega) hpc
      obtain ⟨cs₁, cs₂, hcs⟩ := List.append_of_mem hc
      refine ⟨m, r :: (cs₁.flatMap (g.placeOuter list n) ++ pre),
        post ++ cs₂.flatMap (g.placeOuter list n), hm, ?_⟩
      rw [placeOuter, hcs, List.flatMap_append, List.flatMap_cons, hsplit]
      simp

/-! ### The reordered FROM list -/

/-- The FROM list that `reorderOuter` builds from `list`. -/
theorem fromList_reorderOuter (q : QueryId) :
  ((g.reorderOuter q).block q).fromList =
    ((g.block q).fromList.filter fun f => (g.outerParent (g.block q).fromList f).isNone).flatMap
      (g.placeOuter (g.block q).fromList ((g.block q).fromList.length + 1))
  := by
  unfold reorderOuter
  rw [block_modifyBlock]
  by_cases hq : q.idx < g.blocks.size
  · simp [hq]
  · simp only [hq, and_false, if_false, block_eq_default (Nat.le_of_not_lt hq)]
    rfl

/-- Reordering leaves the items as they are. -/
@[simp]
theorem item_reorderOuter (q : QueryId) (f : FromId) : (g.reorderOuter q).item f = g.item f :=
  rfl

/-- Every item of the list is in the tree of its root. -/
theorem mem_reorderOuter (hwf : WellFounded g.JoinParent) {y : FromId} (hy : y ∈ list) :
  y ∈ (list.filter fun f => (g.outerParent list f).isNone).flatMap
    (g.placeOuter list (list.length + 1))
  := by
  obtain ⟨r, hrl, hroot, hry⟩ := exists_outerRoot hwf hy
  refine List.mem_flatMap.mpr ⟨r, List.mem_filter.mpr ⟨hrl, hroot⟩, ?_⟩
  exact mem_placeOuter_of_reflTransGen hwf _ ((card_outerBelow_le r).trans (Nat.le_succ _)) hry hy

/-- An item outer-joined to a parent comes after it, with only items below the parent between
them. -/
theorem reorderOuter_after_parent (hwf : WellFounded g.JoinParent) {p c : FromId}
    (hpc : g.OuterChild list p c) (hc : c ∈ list) :
  ∃ pre mid post, (list.filter fun f => (g.outerParent list f).isNone).flatMap
      (g.placeOuter list (list.length + 1)) = pre ++ p :: mid ++ c :: post ∧
    ∀ y ∈ mid, Relation.TransGen (g.OuterChild list) p y
  := by
  obtain ⟨r, hrl, hroot, hrp⟩ := exists_outerRoot hwf (mem_of_outerChild hpc)
  have hfuel : (g.outerBelow list r).card ≤ list.length + 1 :=
    (card_outerBelow_le r).trans (Nat.le_succ _)
  have hpr := mem_placeOuter_of_reflTransGen hwf _ hfuel hrp (mem_of_outerChild hpc)
  obtain ⟨m, pre, post, hm, hsplit⟩ := placeOuter_split hwf _ hfuel hpr
  have hcp := mem_placeOuter_of_reflTransGen hwf m hm (.single hpc) hc
  cases m with
  | zero =>
    rw [placeOuter, List.mem_singleton] at hcp
    exact absurd (hcp ▸ hpc) (fun h => not_transGen_outerChild hwf p (.single h))
  | succ m =>
    have htree : g.placeOuter list (m + 1) p =
        p :: (list.filter (g.outerParent list · == some p)).flatMap (g.placeOuter list m) := by
      rw [placeOuter]
    rw [htree] at hcp
    have hne : c ≠ p := fun h => not_transGen_outerChild hwf p (.single (h ▸ hpc))
    obtain ⟨mid, post', htail⟩ := List.append_of_mem ((List.mem_cons.mp hcp).resolve_left hne)
    have hbelow : ∀ y ∈ ((list.filter (g.outerParent list · == some p)).flatMap
        (g.placeOuter list m)), Relation.TransGen (g.OuterChild list) p y := by
      intro y hy
      obtain ⟨d, hd, hyd⟩ := List.mem_flatMap.mp hy
      have hpd : g.OuterChild list p d := by simpa [OuterChild] using (List.mem_filter.mp hd).2
      exact Relation.TransGen.head' hpd (mem_placeOuter hyd).1
    obtain ⟨rs₁, rs₂, hrs⟩ := List.append_of_mem
      (List.mem_filter.mpr ⟨hrl, hroot⟩ : r ∈ list.filter fun f => (g.outerParent list f).isNone)
    refine ⟨rs₁.flatMap (g.placeOuter list (list.length + 1)) ++ pre, mid,
      post' ++ post ++ rs₂.flatMap (g.placeOuter list (list.length + 1)), ?_,
      fun y hy => hbelow y (htail ▸ List.mem_append_left _ hy)⟩
    rw [hrs, List.flatMap_append, List.flatMap_cons, hsplit, htree, htail]
    simp

/-- `reorderOuter` puts the FROM list of a block of a well-formed graph in a valid join order: it
is a permutation of the list, the items that are not outer-joined to an item of the list keep
their order, and each item outer-joined to a parent comes after it with only items below the
parent between them, each of them joined with outer semantics. -/
theorem reorderOuter_joinOrder (hg : g.WellFormed) (q : QueryId) :
  let list := (g.block q).fromList
  let ordered := ((g.reorderOuter q).block q).fromList
  ordered.Perm list ∧
    ordered.filter (fun f => (g.outerParent list f).isNone) =
      list.filter (fun f => (g.outerParent list f).isNone) ∧
    ∀ p c, c ∈ list → g.OuterChild list p c →
      ∃ pre mid post, ordered = pre ++ p :: mid ++ c :: post ∧
        ∀ y ∈ mid, Relation.TransGen (g.OuterChild list) p y ∧ (g.item y).isOuter
  := by
  intro list ordered
  have hordered : ordered = (list.filter fun f => (g.outerParent list f).isNone).flatMap
      (g.placeOuter list (list.length + 1)) := fromList_reorderOuter q
  obtain ⟨hnodup, hsub⟩ := nodup_reorderOuter hg.acyclic (hg.fromNodup q) (list.length + 1)
  refine ⟨?_, ?_, fun p c hc hpc => ?_⟩
  · rw [hordered, List.perm_ext_iff_of_nodup hnodup (hg.fromNodup q)]
    exact fun y => ⟨hsub y, mem_reorderOuter hg.acyclic⟩
  · rw [hordered, List.filter_flatMap]
    conv_rhs => rw [← List.flatMap_singleton' (list.filter _)]
    refine List.flatMap_congr fun r hr => ?_
    exact filter_placeOuter (List.mem_filter.mp hr).2 _
  · obtain ⟨pre, mid, post, hsplit, hbelow⟩ := reorderOuter_after_parent hg.acyclic hpc hc
    refine ⟨pre, mid, post, hordered.trans hsplit, fun y hy => ⟨hbelow y hy, ?_⟩⟩
    obtain ⟨z, -, hzy⟩ := Relation.TransGen.tail'_iff.mp (hbelow y hy)
    exact isOuter_of_outerChild hzy

end Graph

end EntityQuery
