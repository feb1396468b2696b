import Mathlib.Data.List.Infix
import NntpPoco.Lib.Lines

/-!
# `Lib.Pieces` — a text cut at its CRLFs

`pieces` cuts a text at every CRLF in it; a lone CR or LF is a letter like any other. The CRLF a text
ends in closes the last piece, it does not begin another one. No piece has a CRLF in it
(`crlfFree_of_mem_pieces`), and joined by CRLF the pieces are the text again, up to the CRLF it ends in
(`intercalate_pieces`).

A program that looks for the next CRLF from a cursor goes through the pieces one by one
(`pieces_crlfFree`, `pieces_crlf`).
-/

namespace Lines

open LineSyntax

variable {α : Type} [LineSyntax α]

/-- There is no CRLF in the text. -/
def CrlfFree (l : List α) : Prop := ¬ crlf <:+: l

theorem crlfFree_nil : CrlfFree ([] : List α) := by
  simp [CrlfFree, crlf]

theorem crlfFree_cons_iff {x : α} {l : List α} :
    CrlfFree (x :: l) ↔ ¬ crlf <+: x :: l ∧ CrlfFree l := by
  unfold CrlfFree
  rw [List.infix_cons_iff, not_or]

theorem crlf_isPrefix_iff {x y : α} {l : List α} : crlf <+: x :: y :: l ↔ x = cr ∧ y = lf := by
  simp [crlf, List.cons_prefix_cons, eq_comm]

/-! ## The first CRLF -/

/-- A text has no CRLF, or it has a first one. -/
theorem crlfFree_or_first (l : List α) :
    CrlfFree l ∨ ∃ p rest, CrlfFree p ∧ l = p ++ (crlf ++ rest) := by
  induction l with
  | nil => exact Or.inl crlfFree_nil
  | cons x l ih =>
      by_cases hbegins : crlf <+: x :: l
      · obtain ⟨rest, hrest⟩ := hbegins
        exact Or.inr ⟨[], rest, crlfFree_nil, hrest.symm⟩
      · rcases ih with hl | ⟨p, rest, hp, rfl⟩
        · exact Or.inl (crlfFree_cons_iff.mpr ⟨hbegins, hl⟩)
        · refine Or.inr ⟨x :: p, rest, crlfFree_cons_iff.mpr ⟨fun h => hbegins ?_, hp⟩, rfl⟩
          exact h.trans (List.prefix_append (x :: p) _)

/-- A text that goes on behind a CRLF ends in one exactly when what follows does. -/
theorem crlf_isSuffix_iff {l rest : List α} (hne : rest ≠ []) :
    crlf <:+ l ++ (crlf ++ rest) ↔ crlf <:+ rest := by
  constructor
  · intro h
    have hrest : rest <:+ l ++ (crlf ++ rest) := by
      rw [← List.append_assoc]
      exact List.suffix_append _ _
    rcases List.suffix_or_suffix_of_suffix h hrest with hend | hend
    · exact hend
    · -- a single letter behind the CRLF would be an LF behind an LF
      rcases List.suffix_cons_iff.mp hend with rfl | hend
      · exact List.suffix_refl _
      rcases List.suffix_cons_iff.mp hend with rfl | hend
      · obtain ⟨k, hk⟩ := h
        have hlast : k ++ [cr, lf] = l ++ [cr] ++ [(lf : α), lf] := by
          simpa [crlf] using hk
        obtain ⟨_, hends⟩ := List.append_inj' hlast rfl
        exact absurd (List.cons.inj hends).1 cr_ne_lf
      · exact absurd (List.suffix_nil.mp hend) hne
  · intro h
    rw [← List.append_assoc]
    exact h.trans (List.suffix_append _ _)

/-- **Induction along the pieces**: the text is empty, or its last piece, or goes on behind a CRLF. -/
theorem pieces_induction {P : List α → Prop} (nil : P [])
    (last : ∀ l, l ≠ [] → CrlfFree l → P l)
    (step : ∀ p rest, CrlfFree p → P rest → P (p ++ (crlf ++ rest))) (l : List α) : P l := by
  induction hn : l.length using Nat.strong_induction_on generalizing l with
  | _ n ih =>
      subst hn
      rcases crlfFree_or_first l with hl | ⟨p, rest, hp, rfl⟩
      · by_cases hne : l = []
        · rwa [hne]
        · exact last l hne hl
      · exact step p rest hp (ih rest.length (by simp [crlf]; omega) rest rfl)

/-! ## Cutting -/

section Pieces

variable [DecidableEq α]

/-- The longest parts of a text without a CRLF, in order. -/
def pieces : List α → List (List α)
  | [] => []
  | [x] => [[x]]
  | x :: y :: l => if x = cr ∧ y = lf then [] :: pieces l else (pieces (y :: l)).modifyHead (x :: ·)

@[simp] theorem pieces_nil : pieces ([] : List α) = [] := rfl

theorem pieces_of_isPrefix (l : List α) : pieces (crlf ++ l) = [] :: pieces l := by
  simp [crlf, pieces]

/-- A letter that no CRLF begins with belongs to the first piece. -/
theorem pieces_cons {x y : α} {l : List α} (h : ¬ crlf <+: x :: y :: l) :
    pieces (x :: y :: l) = (pieces (y :: l)).modifyHead (x :: ·) := by
  rw [pieces, if_neg (mt crlf_isPrefix_iff.mpr h)]

/-- **A text without a CRLF** is one piece. -/
theorem pieces_crlfFree {l : List α} (hne : l ≠ []) (hl : CrlfFree l) : pieces l = [l] := by
  induction l with
  | nil => exact absurd rfl hne
  | cons x l ih =>
      cases l with
      | nil => rfl
      | cons y l =>
          obtain ⟨hbegins, hl'⟩ := crlfFree_cons_iff.mp hl
          rw [pieces_cons hbegins, ih (by simp) hl']
          rfl

/-- **Up to the first CRLF** a text is its first piece, and behind it come the others. -/
theorem pieces_crlf {l : List α} (hl : CrlfFree l) (rest : List α) :
    pieces (l ++ (crlf ++ rest)) = l :: pieces rest := by
  induction l with
  | nil => exact pieces_of_isPrefix rest
  | cons x l ih =>
      obtain ⟨hbegins, hl'⟩ := crlfFree_cons_iff.mp hl
      have ih := ih hl'
      cases l with
      | nil =>
          -- the CR of the CRLF comes next, and no CRLF ends in a CR
          have hbegins' : ¬ crlf <+: x :: cr :: lf :: rest :=
            fun h => cr_ne_lf (crlf_isPrefix_iff.mp h).2
          show pieces (x :: cr :: lf :: rest) = _
          rw [pieces_cons hbegins']
          show (pieces ([] ++ (crlf ++ rest))).modifyHead (x :: ·) = _
          rw [ih]
          rfl
      | cons y l =>
          have hbegins' : ¬ crlf <+: x :: y :: (l ++ (crlf ++ rest)) :=
            fun h => hbegins (crlf_isPrefix_iff.mpr (crlf_isPrefix_iff.mp h))
          show pieces (x :: y :: (l ++ (crlf ++ rest))) = _
          rw [pieces_cons hbegins']
          show (pieces (y :: l ++ (crlf ++ rest))).modifyHead (x :: ·) = _
          rw [ih]
          rfl

/-- No piece has a CRLF in it. -/
theorem crlfFree_of_mem_pieces {l p : List α} (hp : p ∈ pieces l) : CrlfFree p := by
  induction l using pieces_induction with
  | nil => exact absurd hp List.not_mem_nil
  | last l hne hl =>
      rw [pieces_crlfFree hne hl, List.mem_singleton] at hp
      rwa [hp]
  | step q rest hq ih =>
      rw [pieces_crlf hq, List.mem_cons] at hp
      rcases hp with rfl | hp
      · exact hq
      · exact ih hp

theorem pieces_ne_nil {l : List α} (hne : l ≠ []) : pieces l ≠ [] := by
  rcases crlfFree_or_first l with hl | ⟨p, rest, hp, rfl⟩
  · rw [pieces_crlfFree hne hl]
    simp
  · rw [pieces_crlf hp]
    simp

/-- **The pieces joined by CRLF** are the text, -/
theorem intercalate_pieces {l : List α} (hl : ¬ crlf <:+ l) :
    List.intercalate crlf (pieces l) = l := by
  induction l using pieces_induction with
  | nil => rfl
  | last l hne hfree =>
      rw [pieces_crlfFree hne hfree]
      exact List.intercalate_singleton
  | step p rest hp ih =>
      by_cases hne : rest = []
      · subst hne
        exact absurd ⟨p, by simp⟩ hl
      · have hrest := ih (mt (crlf_isSuffix_iff hne).mpr hl)
        rw [pieces_crlf hp, List.intercalate_cons_of_ne_nil (pieces_ne_nil hne), hrest, List.append_assoc]

/-- or what the text is in front of the CRLF it ends in. -/
theorem intercalate_pieces_append {l : List α} (hl : crlf <:+ l) :
    List.intercalate crlf (pieces l) ++ crlf = l := by
  induction l using pieces_induction with
  | nil => exact absurd (List.suffix_nil.mp hl) (by simp [crlf])
  | last l hne hfree => exact absurd hl.isInfix hfree
  | step p rest hp ih =>
      rw [pieces_crlf hp]
      by_cases hne : rest = []
      · subst hne
        rw [pieces_nil, List.intercalate_singleton, List.append_nil]
      · have hrest := ih ((crlf_isSuffix_iff hne).mp hl)
        rw [List.intercalate_cons_of_ne_nil (pieces_ne_nil hne), List.append_assoc, List.append_assoc,
          hrest]

end Pieces

end Lines
