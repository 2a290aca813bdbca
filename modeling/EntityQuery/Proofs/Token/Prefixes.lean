import Mathlib
import EntityQuery.Proofs.Token.Rescanning

/-!
# What a text holds before an offset

The lexemes of `scanText q` start one after another, so the lexemes that start before an
offset `x` are a prefix of them, `lexemesBefore q x`, and a larger offset has a longer prefix.
Two things are read off such a prefix: the parameters written before `x`, in order
(`parametersBefore`), and the depth of parentheses at `x` (`depthAt`), the `(` before it less
the `)`.

A scan step from a scanner on `q` passes over no lexeme before the token it takes, and the
token is the one lexeme between its start and its end (`Scanner.OnText.lexemesBefore_next`):
the prefix grows by that token and by nothing else. The end of the text is the last lexeme, so
every parameter of the text stands before it (`parametersBefore_of_eof`).
-/

namespace EntityQuery

namespace Token

/-- The parameter a token stands for: `?n` and `:name`. -/
@[grind]
def parameter? : Token → Option ArgSource
  | .positional n => some (.positional n)
  | .named name => some (.named name)
  | .integer _ | .long _ | .double _ | .string _ | .boolean _ | .null | .identifier _
  | .keyword _ | .lparen | .rparen | .dot | .comma | .plus | .minus | .star | .slash | .eq
  | .notEq | .lt | .ltEq | .gt | .gtEq | .concat | .eof => none

/-- How a token changes the depth of parentheses: one deeper at `(`, one shallower at `)`. -/
@[grind]
def nesting : Token → Int
  | .lparen => 1
  | .rparen => -1
  | _ => 0

end Token

/-- The lexemes of `q` that start before offset `x`. -/
def lexemesBefore (q : String) (x : Nat) : List Lexeme :=
  (scanText q).1.filter (·.start < x)

/-- The parameters written in `q`, in order. -/
def textParameters (q : String) : List ArgSource :=
  (scanText q).1.filterMap (·.token.parameter?)

/-- The parameters written in `q` before offset `x`, in order. -/
def parametersBefore (q : String) (x : Nat) : List ArgSource :=
  (lexemesBefore q x).filterMap (·.token.parameter?)

/-- The depth of parentheses of `q` at offset `x`. -/
def depthAt (q : String) (x : Nat) : Int :=
  ((lexemesBefore q x).map (·.token.nesting)).sum

/-- In lexemes that start one after another, those that start before `x` come first. -/
theorem Lexeme.filter_start_lt_eq_takeWhile {ls : List Lexeme}
    (hs : ls.Pairwise (fun a b => a.start < b.start)) (x : Nat) :
  ls.filter (·.start < x) = ls.takeWhile (·.start < x)
  := by
  induction ls with
  | nil => rfl
  | cons l ls ih =>
    obtain ⟨hl, hls⟩ := List.pairwise_cons.mp hs
    by_cases hx : l.start < x
    · simp [hx, ih hls]
    · have hrest : ls.filter (·.start < x) = [] := by
        rw [List.filter_eq_nil_iff]
        intro m hm
        have := hl m hm
        simp only [decide_eq_true_eq]
        omega
      simp [hx, hrest]

namespace Lexeme

variable {q : String} {x y : Nat}

theorem lexemesBefore_isPrefix (q : String) (x : Nat) : lexemesBefore q x <+: (scanText q).1 := by
  rw [lexemesBefore, filter_start_lt_eq_takeWhile (scanText_sorted q)]
  exact List.takeWhile_prefix _

/-- A larger offset has more of the text before it. -/
theorem lexemesBefore_prefix_of_le (h : x ≤ y) : lexemesBefore q x <+: lexemesBefore q y := by
  apply List.prefix_of_prefix_length_le (lexemesBefore_isPrefix q x) (lexemesBefore_isPrefix q y)
  apply List.Sublist.length_le
  apply List.monotone_filter_right
  intro l hl
  simp only [decide_eq_true_eq] at hl ⊢
  omega

end Lexeme

section Prefixes

variable {q : String} {x y : Nat}

theorem parametersBefore_isPrefix (q : String) (x : Nat) :
  parametersBefore q x <+: textParameters q
  := (Lexeme.lexemesBefore_isPrefix q x).filterMap _

theorem parametersBefore_prefix_of_le (h : x ≤ y) :
  parametersBefore q x <+: parametersBefore q y
  := (Lexeme.lexemesBefore_prefix_of_le h).filterMap _

@[simp]
theorem lexemesBefore_zero (q : String) : lexemesBefore q 0 = [] := by
  simp [lexemesBefore]

@[simp]
theorem parametersBefore_zero (q : String) : parametersBefore q 0 = [] := by
  simp [parametersBefore]

end Prefixes

namespace Scanner

variable {q : String} {s s' : Scanner} {t : Token}

/-- Where a scan step puts the token it takes: after the offset it starts from, at least one
character long unless it is the end of the text, which is found only where nothing is left. -/
theorem next_offsets (hnext : s.next = .ok (t, s')) :
  s.pos ≤ s'.start ∧ s'.start ≤ s'.pos ∧ (t ≠ .eof → s'.start < s'.pos) ∧
    (t = .eof → s'.rest = [] ∧ s'.start = s'.pos)
  := by
  obtain ⟨n, htok, rfl⟩ := next_eq_ok hnext
  refine ⟨by simp, by simp, fun ht => ?_, fun ht => ?_⟩
  · have := Scan.length_pos_of_ne_eof htok ht
    simp only
    omega
  · subst ht
    obtain ⟨hnil, rfl⟩ := Scan.eq_nil_of_token_eof htok
    simp [hnil]

/-- A scan step stays on its text. -/
theorem query_next (hnext : s.next = .ok (t, s')) : s'.query = s.query := by
  obtain ⟨n, -, rfl⟩ := next_eq_ok hnext
  rfl

/-- The one scan of `q` seen from a scanner on it: the lexemes that start before the
scanner's offset, then the lexemes still to come, scanned with fuel enough to reach the end;
or the scan has found the end of the text and finds it again at every step. -/
theorem OnText.split (h : s.OnText q) :
  (∃ f, s.rest.length < f ∧ (scanText q).1 = lexemesBefore q s.pos ++ (lexemes f s).1) ∨
    s.next = .ok (.eof, s)
  := by
  induction h with
  | refl =>
    left
    refine ⟨q.length + 1, by simp [ofString, String.length_toList], ?_⟩
    simp [ofString, scanText]
  | @tail s s' _ hstep ih =>
    obtain ⟨t, hnext⟩ := hstep
    obtain ⟨hpos, -, hlen, heof⟩ := next_offsets hnext
    rcases ih with ⟨f, hf, hsplit⟩ | hend
    · cases f with
      | zero => omega
      | succ f =>
        rw [lexemes_succ hnext] at hsplit
        by_cases ht : t = .eof
        · subst ht
          obtain ⟨hrest, hstart⟩ := heof rfl
          exact .inr (next_at_end hrest hstart)
        · left
          obtain ⟨n, htok, hs'⟩ := next_eq_ok hnext
          have hne : s.rest.drop (Scan.gapLength s.rest) ≠ [] := fun hnil =>
            ht (by rw [hnil] at htok; cases htok; rfl)
          have hn := Scan.token_length_pos htok hne
          have hdrop : 0 < (s.rest.drop (Scan.gapLength s.rest)).length :=
            List.length_pos_iff.mpr hne
          have hrest : s'.rest.length < f := by
            rw [hs']
            simp only [List.length_drop] at hdrop hf ⊢
            omega
          refine ⟨f, hrest, ?_⟩
          simp only [ht, if_false] at hsplit
          have hlen := hlen ht
          have hbefore : lexemesBefore q s'.pos =
              lexemesBefore q s.pos ++ [⟨t, s'.start, s'.lexeme⟩] := by
            conv_lhs => rw [lexemesBefore, hsplit]
            rw [List.filter_append, List.filter_cons_of_pos (by simpa using hlen)]
            have hold : (lexemesBefore q s.pos).filter (·.start < s'.pos) =
                lexemesBefore q s.pos := by
              rw [List.filter_eq_self]
              intro l hl
              have := (List.mem_filter.mp hl).2
              simp only [decide_eq_true_eq] at this ⊢
              omega
            have hnew : (lexemes f s').1.filter (·.start < s'.pos) = [] := by
              rw [List.filter_eq_nil_iff]
              intro l hl
              have := lexemes_start_ge f s' l hl
              simp only [decide_eq_true_eq]
              omega
            rw [hold, hnew]
          rw [hsplit, hbefore, List.append_assoc, List.singleton_append]
    · rw [hend] at hnext
      simp only [Except.ok.injEq, Prod.mk.injEq] at hnext
      obtain ⟨-, rfl⟩ := hnext
      exact .inr hend

/-- A scan step from a scanner on `q` passes over no lexeme before the token it takes, and
takes that token, unless it is the end of the text. -/
theorem OnText.lexemesBefore_next (h : s.OnText q) (hnext : s.next = .ok (t, s')) :
  lexemesBefore q s'.start = lexemesBefore q s.pos ∧
    lexemesBefore q s'.pos =
      lexemesBefore q s'.start ++ if t = .eof then [] else [⟨t, s'.start, s'.lexeme⟩]
  := by
  obtain ⟨hpos, hle, hlen, heof⟩ := next_offsets hnext
  rcases h.split with ⟨f, hf, hsplit⟩ | hend
  · cases f with
    | zero => omega
    | succ f =>
      rw [lexemes_succ hnext] at hsplit
      have hafter : ∀ l ∈ (if t = .eof then [] else (lexemes f s').1), s'.pos ≤ l.start := by
        split
        · simp
        · exact lexemes_start_ge f s'
      have hold : ∀ z, s.pos ≤ z → (lexemesBefore q s.pos).filter (·.start < z) =
          lexemesBefore q s.pos := by
        intro z hz
        rw [List.filter_eq_self]
        intro l hl
        have := (List.mem_filter.mp hl).2
        simp only [decide_eq_true_eq] at this ⊢
        omega
      have hrest : ∀ z, z ≤ s'.pos →
          (if t = .eof then [] else (lexemes f s').1).filter (·.start < z) = [] := by
        intro z hz
        rw [List.filter_eq_nil_iff]
        intro l hl
        have := hafter l hl
        simp only [decide_eq_true_eq]
        omega
      have hfirst : lexemesBefore q s'.start = lexemesBefore q s.pos := by
        conv_lhs => rw [lexemesBefore, hsplit]
        rw [List.filter_append, hold _ hpos, List.filter_cons_of_neg (by simp), hrest _ hle,
          List.append_nil]
      refine ⟨hfirst, ?_⟩
      rw [hfirst]
      conv_lhs => rw [lexemesBefore, hsplit]
      rw [List.filter_append, hold _ (hpos.trans hle)]
      by_cases ht : t = .eof
      · obtain ⟨-, hstart⟩ := heof ht
        rw [List.filter_cons_of_neg (by simp [hstart]), hrest _ (Nat.le_refl _)]
        simp [ht]
      · rw [List.filter_cons_of_pos (by simpa using hlen ht), hrest _ (Nat.le_refl _)]
        simp [ht]
  · rw [hend] at hnext
    simp only [Except.ok.injEq, Prod.mk.injEq] at hnext
    obtain ⟨rfl, rfl⟩ := hnext
    obtain ⟨-, hstart⟩ := heof rfl
    simp [hstart]

/-- The end of the text is the last lexeme of a scan. -/
theorem start_le_of_eof_mem {p : Nat} {text : String} (f : Nat) (s : Scanner)
    (heof : ⟨.eof, p, text⟩ ∈ (lexemes f s).1) :
  ∀ l ∈ (lexemes f s).1, l.start ≤ p
  := by
  induction f generalizing s with
  | zero => simp [lexemes] at heof
  | succ f ih =>
    cases hnext : s.next with
    | error e => simp [lexemes, hnext] at heof
    | ok r =>
      obtain ⟨t, s'⟩ := r
      rw [lexemes_succ hnext] at heof ⊢
      intro l hl
      split at heof
      · simp only [List.mem_singleton] at heof hl
        split at hl <;> simp_all
      · rename_i ht
        simp only [ht, if_false, List.mem_cons] at heof hl
        rcases heof with heq | heof
        · cases heq
          exact absurd rfl ht
        rcases hl with rfl | hl
        · have hge := lexemes_start_ge f s' _ heof
          have hlt := (next_offsets hnext).2.2.1 ht
          simp only at hge ⊢
          omega
        · exact ih s' heof l hl

end Scanner

/-- Every parameter of a text stands before its end. -/
theorem parametersBefore_of_eof {q : String} {p : Nat} {text : String}
    (heof : ⟨.eof, p, text⟩ ∈ (scanText q).1) :
  parametersBefore q p = textParameters q
  := by
  obtain ⟨i, hi⟩ := List.mem_iff_getElem?.mp heof
  have hone := Lexeme.filter_start_eq (scanText_sorted q) hi
  have hle := Scanner.start_le_of_eof_mem _ _ heof
  rw [parametersBefore, textParameters, lexemesBefore, List.filterMap_filter]
  apply List.filterMap_congr
  intro l hl
  by_cases hlt : l.start < p
  · simp [hlt]
  · have hat : l ∈ (scanText q).1.filter (·.start = p) :=
      List.mem_filter.mpr ⟨hl, by simpa using Nat.le_antisymm (hle l hl) (Nat.not_lt.mp hlt)⟩
    simp only at hone
    rw [hone, List.mem_singleton] at hat
    subst hat
    simp [Token.parameter?]

end EntityQuery
