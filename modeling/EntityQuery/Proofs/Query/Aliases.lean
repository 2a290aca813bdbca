import Mathlib
import EntityQuery.Proofs.Query.Binding

/-!
# Generated aliases are fresh

`Binding.generateAlias` tries the aliases `prefix ++ toString n` from the binder's counter `n`
on, and takes the first that no reserved name and no item's alias equals ignoring ASCII case.
Lower-casing keeps the digits of a counter, so distinct counters give aliases that differ
ignoring case (`Binder.candidate_lower_inj`), and each taken name blocks at most one of them.
The tries of `Binder.freeCounter`, one more than there are taken names, therefore always reach
a free alias (`Binder.exists_free`, `Binder.freeCounter_free`).

`Binding.generateAlias_fresh` is the step: the alias given out is free in the binder it is
generated from and lies at or after the counter, which moves past it. So it also differs from
every alias given out before, whose counters lie below. Every step of binding keeps the names
the binder reserves and the prefix of its aliases, and never moves the counter back
(`Binder.Continues`).
-/

open Std.Do

set_option mvcgen.warning false

namespace EntityQuery

/-! ### Texts compared ignoring ASCII case -/

/-- Equality ignoring ASCII case is equality of the lower-cased texts. -/
theorem asciiEqIgnoreCase_iff (a b : String) :
  asciiEqIgnoreCase a b = true ↔ a.map Char.toLower = b.map Char.toLower
  := by
  rw [asciiEqIgnoreCase, beq_iff_eq, ← String.toList_inj, String.toList_map, String.toList_map]

/-- Lower-casing leaves a decimal digit alone: only `A` to `Z` change. -/
theorem toLower_of_isDigit {c : Char} (h : c.isDigit = true) : c.toLower = c := by
  unfold Char.toLower
  split
  · rename_i hupper
    simp only [Char.isDigit, Bool.and_eq_true, decide_eq_true_eq] at h
    have hA := hupper.1
    have h9 := h.2
    simp [UInt32.le_iff_toNat_le] at hA h9
    omega
  · rfl

/-- Lower-casing leaves the decimal text of a number alone. -/
theorem lower_toString (n : Nat) : (toString n).map Char.toLower = toString n := by
  apply String.toList_inj.mp
  rw [String.toList_map, Nat.toString_eq_ofList_toDigits, String.toList_ofList]
  calc (Nat.toDigits 10 n).map Char.toLower = (Nat.toDigits 10 n).map id :=
        List.map_congr_left fun c hc =>
          toLower_of_isDigit (Nat.isDigit_of_mem_toDigits (by decide) (by decide) hc)
    _ = Nat.toDigits 10 n := List.map_id _

/-- Distinct numbers have distinct decimal texts: the digits read back to the number. -/
theorem toString_injective : Function.Injective (toString : Nat → String) := by
  intro n m h
  have hdigits : Nat.toDigits 10 n = Nat.toDigits 10 m := by
    simpa only [Nat.toString_eq_ofList_toDigits, String.toList_ofList] using
      congrArg String.toList h
  simpa using congrArg (fun ds => Nat.ofDigitChars 10 ds 0) hdigits

/-! ### Candidates and taken names -/

namespace Binder

variable (b : Binder)

/-- The lower-cased names a generated alias must avoid: the reserved names, and the aliases of
the items. -/
def takenNames : List String :=
  b.reserved ++ b.graph.items.toList.map (·.aliasName.map Char.toLower)

theorem length_takenNames : b.takenNames.length = b.reserved.length + b.graph.items.size := by
  simp [takenNames]

/-- An alias is taken when its lower-cased text is a taken name. -/
theorem aliasTaken_iff (a : String) :
  b.aliasTaken a = true ↔ a.map Char.toLower ∈ b.takenNames
  := by
  simp only [aliasTaken, Bool.or_eq_true, List.contains_iff_mem, Array.any_eq_true',
    asciiEqIgnoreCase_iff, takenNames, List.mem_append, List.mem_map, Array.mem_toList_iff]

/-- A lower-cased candidate is the lower-cased prefix followed by the counter. -/
theorem lower_candidate (n : Nat) :
  (b.candidate n).map Char.toLower = b.aliasPrefix.map Char.toLower ++ toString n
  := by
  apply String.toList_inj.mp
  rw [candidate, String.toList_map, String.toList_append, String.toList_append, List.map_append,
    ← String.toList_map, ← String.toList_map, lower_toString]

/-- Candidates with distinct counters differ ignoring ASCII case. -/
theorem candidate_lower_inj {n m : Nat}
    (h : (b.candidate n).map Char.toLower = (b.candidate m).map Char.toLower) :
  n = m
  := by
  rw [lower_candidate, lower_candidate] at h
  exact toString_injective ((String.append_right_inj _).mp h)

/-- Among `k` counters from `n` on, one has a free candidate when there are fewer than `k` taken
names: lower-casing maps the taken candidates one to one into the taken names. -/
theorem exists_free (n k : Nat) (hk : b.takenNames.length < k) :
  ∃ m, n ≤ m ∧ m < n + k ∧ b.aliasTaken (b.candidate m) = false
  := by
  by_contra hnone
  have htaken : ∀ m, n ≤ m → m < n + k → b.aliasTaken (b.candidate m) = true := by
    intro m hnm hmk
    by_contra hfree
    exact hnone ⟨m, hnm, hmk, Bool.eq_false_iff.mpr hfree⟩
  have hmaps : Set.MapsTo (fun m => (b.candidate m).map Char.toLower) (Finset.Ico n (n + k))
      b.takenNames.toFinset := by
    intro m hm
    rw [Finset.coe_Ico, Set.mem_Ico] at hm
    rw [Finset.mem_coe, List.mem_toFinset]
    exact (b.aliasTaken_iff _).mp (htaken m hm.1 hm.2)
  have hinj : Set.InjOn (fun m => (b.candidate m).map Char.toLower) (Finset.Ico n (n + k)) :=
    fun _ _ _ _ h => b.candidate_lower_inj h
  have hcard := Finset.card_le_card_of_injOn _ hmaps hinj
  have hlen := List.toFinset_card_le b.takenNames
  rw [Nat.card_Ico] at hcard
  omega

/-- `freeCounter` never goes back from where it starts. -/
theorem le_freeCounter : ∀ fuel n, n ≤ b.freeCounter fuel n
  | 0, _ => le_refl _
  | fuel + 1, n => by
    unfold freeCounter
    split
    · exact Nat.le_of_succ_le (le_freeCounter fuel (n + 1))
    · exact le_refl n

/-- `freeCounter` stops at a free candidate, at or after where it starts, when one lies within
its tries. -/
theorem freeCounter_free :
    ∀ fuel n, (∃ m, n ≤ m ∧ m < n + fuel ∧ b.aliasTaken (b.candidate m) = false) →
      n ≤ b.freeCounter fuel n ∧ b.aliasTaken (b.candidate (b.freeCounter fuel n)) = false
  | 0, _, ⟨_, hnm, hm, _⟩ => absurd hm (by omega)
  | fuel + 1, n, ⟨m, hnm, hm, hfree⟩ => by
    unfold freeCounter
    split
    · rename_i htaken
      have hne : m ≠ n := by
        rintro rfl
        rw [htaken] at hfree
        cases hfree
      obtain ⟨hle, hfree'⟩ := freeCounter_free fuel (n + 1) ⟨m, by omega, by omega, hfree⟩
      exact ⟨by omega, hfree'⟩
    · rename_i hnot
      exact ⟨le_refl n, Bool.eq_false_iff.mpr hnot⟩

/-- An alias the binder may give out: it differs, ignoring ASCII case, from every name the
binder reserves, from the alias of every item, and from every candidate with a counter below
the binder's, among them every alias given out before. -/
structure FreshAlias (a : String) : Prop where
  reserved : a.map Char.toLower ∉ b.reserved
  items : ∀ i ∈ b.graph.items, asciiEqIgnoreCase i.aliasName a = false
  earlier : ∀ m < b.nextAlias, asciiEqIgnoreCase (b.candidate m) a = false

/-- From `b₀` the binder kept the names it reserves and the prefix of its aliases, and its
counter did not go back. -/
def Continues (b₀ b : Binder) : Prop :=
  b.reserved = b₀.reserved ∧ b.aliasPrefix = b₀.aliasPrefix ∧ b₀.nextAlias ≤ b.nextAlias

@[grind =]
theorem continues_iff (b₀ : Binder) :
  b₀.Continues b ↔
    b.reserved = b₀.reserved ∧ b.aliasPrefix = b₀.aliasPrefix ∧ b₀.nextAlias ≤ b.nextAlias
  := Iff.rfl

theorem Continues.refl (b : Binder) : b.Continues b :=
  ⟨rfl, rfl, le_refl _⟩

end Binder

/-! ### Steps of binding -/

namespace Binding

/-- The alias given out is a candidate at or after the counter, fresh in the binder it is
generated from, and the counter moves past it. -/
theorem generateAlias_fresh (b : Binder) :
  ∃ n, b.nextAlias ≤ n ∧ b.FreshAlias (b.candidate n) ∧
    generateAlias.run b = .ok (b.candidate n, { b with nextAlias := n + 1 })
  := by
  have hfuel : b.takenNames.length < b.reserved.length + b.graph.items.size + 1 := by
    rw [b.length_takenNames]
    omega
  set n := b.freeCounter (b.reserved.length + b.graph.items.size + 1) b.nextAlias
  obtain ⟨hle, hfree⟩ : b.nextAlias ≤ n ∧ b.aliasTaken (b.candidate n) = false :=
    b.freeCounter_free _ b.nextAlias (b.exists_free b.nextAlias _ hfuel)
  have hnot : (b.candidate n).map Char.toLower ∉ b.takenNames := by
    rw [← b.aliasTaken_iff, hfree]
    exact Bool.false_ne_true
  refine ⟨n, hle, ⟨?_, ?_, ?_⟩, rfl⟩
  · exact fun h => hnot (List.mem_append_left _ h)
  · intro i hi
    apply Bool.eq_false_iff.mpr
    rw [ne_eq, asciiEqIgnoreCase_iff]
    intro h
    apply hnot (List.mem_append_right _ (List.mem_map.mpr ⟨i, Array.mem_toList_iff.mpr hi, h⟩))
  · intro m hm
    apply Bool.eq_false_iff.mpr
    rw [ne_eq, asciiEqIgnoreCase_iff]
    intro h
    have := b.candidate_lower_inj h
    omega

/-- A step of binding that keeps the names the binder reserves and the prefix of its aliases,
and does not move its counter back. -/
abbrev KeepsNames {α : Type} (m : Binding α) : Prop :=
  ∀ b₀ : Binder, ⦃fun b => ⌜b₀.Continues b⌝⦄ m ⦃⇓? _ b => ⌜b₀.Continues b⌝⦄

theorem generateAlias_continues (b₀ : Binder) :
  ⦃fun b => ⌜b₀.Continues b⌝⦄ generateAlias ⦃⇓? _ b => ⌜b₀.Continues b⌝⦄
  := by
  mvcgen [generateAlias] with grind [Binder.le_freeCounter]

theorem newQuery_continues (parent : Option QueryId) (body : Body) (b₀ : Binder) :
  ⦃fun b => ⌜b₀.Continues b⌝⦄ newQuery parent body ⦃⇓? _ b => ⌜b₀.Continues b⌝⦄
  := by
  mvcgen [newQuery]

theorem resolveEntity_continues (name : String) (b₀ : Binder) :
  ⦃fun b => ⌜b₀.Continues b⌝⦄ resolveEntity name ⦃⇓? _ b => ⌜b₀.Continues b⌝⦄
  := by
  mvcgen [resolveEntity]

theorem checkAliasFree_continues (q : QueryId) (aliasName : String) (b₀ : Binder) :
  ⦃fun b => ⌜b₀.Continues b⌝⦄ checkAliasFree q aliasName ⦃⇓? _ b => ⌜b₀.Continues b⌝⦄
  := by
  mvcgen [checkAliasFree]

theorem itemEntity_continues (f : FromId) (field : String) (b₀ : Binder) :
  ⦃fun b => ⌜b₀.Continues b⌝⦄ itemEntity f field ⦃⇓? _ b => ⌜b₀.Continues b⌝⦄
  := by
  mvcgen [itemEntity]

theorem fieldOf_continues (e : Entity) (field : String) (b₀ : Binder) :
  ⦃fun b => ⌜b₀.Continues b⌝⦄ fieldOf e field ⦃⇓? _ b => ⌜b₀.Continues b⌝⦄
  := by
  mvcgen [fieldOf]

theorem pushItem_continues (q : QueryId) (aliasName : String) (table : Table)
    (entity : Option Entity) (join : Option Join) (semantics : JoinSemantics) (b₀ : Binder) :
  ⦃fun b => ⌜b₀.Continues b⌝⦄
  pushItem q aliasName table entity join semantics
  ⦃⇓? _ b => ⌜b₀.Continues b⌝⦄
  := by
  mvcgen [pushItem]

theorem declareRoot_continues (q : QueryId) (entity : Entity) (aliasName : String) (bulk : Bool)
    (b₀ : Binder) :
  ⦃fun b => ⌜b₀.Continues b⌝⦄ declareRoot q entity aliasName bulk ⦃⇓? _ b => ⌜b₀.Continues b⌝⦄
  := by
  mvcgen [declareRoot, checkAliasFree_continues, pushItem_continues] with grind

theorem addJoined_continues (q : QueryId) (aliasName : String) (entity : Option Entity)
    (table : Table) (parent : FromId) (pairs : List (String × String)) (kind : JoinKind)
    (semantics : JoinSemantics) (b₀ : Binder) :
  ⦃fun b => ⌜b₀.Continues b⌝⦄
  addJoined q aliasName entity table parent pairs kind semantics
  ⦃⇓? _ b => ⌜b₀.Continues b⌝⦄
  := by
  mvcgen [addJoined, pushItem_continues]

theorem joinToOne_continues (q : QueryId) (parent : FromId) (entity : Entity)
    (field target : String) (columns : List String) (semantics : JoinSemantics)
    (aliasName : Option String) (b₀ : Binder) :
  ⦃fun b => ⌜b₀.Continues b⌝⦄
  joinToOne q parent entity field target columns semantics aliasName
  ⦃⇓? _ b => ⌜b₀.Continues b⌝⦄
  := by
  cases aliasName <;>
    mvcgen [joinToOne, resolveEntity_continues, generateAlias_continues, addJoined_continues]
  all_goals grind

theorem collection_continues (parent : FromId) (entity : Entity) (field : String)
    (kind : FieldKind) (b₀ : Binder) :
  ⦃fun b => ⌜b₀.Continues b⌝⦄ collection parent entity field kind ⦃⇓? _ b => ⌜b₀.Continues b⌝⦄
  := by
  mvcgen [collection, resolveEntity_continues, generateAlias_continues] with grind

theorem navigate_continues (q : QueryId) (parent : FromId) (field : String)
    (semantics : JoinSemantics) (b₀ : Binder) :
  ⦃fun b => ⌜b₀.Continues b⌝⦄ navigate q parent field semantics ⦃⇓? _ b => ⌜b₀.Continues b⌝⦄
  := by
  mvcgen [navigate, itemEntity_continues, fieldOf_continues, joinToOne_continues,
    collection_continues] with grind

theorem declarePath_continues (q : QueryId) (parent : FromId) (field aliasName : String)
    (semantics : JoinSemantics) (b₀ : Binder) :
  ⦃fun b => ⌜b₀.Continues b⌝⦄
  declarePath q parent field aliasName semantics
  ⦃⇓? _ b => ⌜b₀.Continues b⌝⦄
  := by
  mvcgen [declarePath, checkAliasFree_continues, itemEntity_continues, fieldOf_continues,
    joinToOne_continues, resolveEntity_continues, addJoined_continues, generateAlias_continues]
  with grind

theorem markFetch_continues (f : FromId) (b₀ : Binder) :
  ⦃fun b => ⌜b₀.Continues b⌝⦄ markFetch f ⦃⇓? _ b => ⌜b₀.Continues b⌝⦄
  := by
  mvcgen [markFetch]

theorem argument_continues (source : ArgSource) (b₀ : Binder) :
  ⦃fun b => ⌜b₀.Continues b⌝⦄ argument source ⦃⇓? _ b => ⌜b₀.Continues b⌝⦄
  := by
  mvcgen [argument]

end Binding

end EntityQuery
