import Mathlib.Data.List.Basic
import Mathlib.Tactic.Common

/-!
# `Lib.Lines` — CRLF lines and dot-terminated blocks

Line-oriented text over any alphabet with a CR, an LF and a dot (`LineSyntax`).

* `readLine` takes one line off a stream the generous way: CR LF, a lone CR, a lone LF and the end
  of the stream all end a line.
* `encodeBlock` is the dot-stuffed multi-line block of SMTP, POP3 and NNTP: a line that begins with a
  dot gets one more (`stuff`), every line ends in CRLF, and a line that is a single dot ends the
  block. No stuffed line is that terminator (`stuff_ne_dot`).
-/

/-- The three letters line-oriented text is made of. -/
class LineSyntax (α : Type) where
  cr : α
  lf : α
  dot : α
  cr_ne_lf : cr ≠ lf
  dot_ne_cr : dot ≠ cr
  dot_ne_lf : dot ≠ lf

namespace Lines

open LineSyntax

variable {α : Type} [LineSyntax α]

/-- The end of a line. -/
def crlf : List α := [cr, lf]

/-- A line's own text: neither a CR nor an LF in it. -/
def BreakFree (l : List α) : Prop := cr ∉ l ∧ lf ∉ l

instance [DecidableEq α] (l : List α) : Decidable (BreakFree l) :=
  inferInstanceAs (Decidable (_ ∧ _))

@[simp] theorem breakFree_nil : BreakFree ([] : List α) := by simp [BreakFree]

@[simp] theorem breakFree_cons {x : α} {l : List α} :
    BreakFree (x :: l) ↔ (x ≠ cr ∧ x ≠ lf) ∧ BreakFree l := by
  simp only [BreakFree, List.mem_cons, not_or]
  constructor
  · rintro ⟨⟨h1, h2⟩, h3, h4⟩
    exact ⟨⟨Ne.symm h1, Ne.symm h3⟩, h2, h4⟩
  · rintro ⟨⟨h1, h3⟩, h2, h4⟩
    exact ⟨⟨Ne.symm h1, h2⟩, Ne.symm h3, h4⟩

@[simp] theorem breakFree_append {l m : List α} :
    BreakFree (l ++ m) ↔ BreakFree l ∧ BreakFree m := by
  induction l with
  | nil => simp
  | cons x l ih =>
      simp only [List.cons_append, breakFree_cons, ih, and_assoc]

theorem BreakFree.of_isPrefix {l m : List α} (h : l <+: m) (hm : BreakFree m) : BreakFree l := by
  obtain ⟨k, rfl⟩ := h
  exact (breakFree_append.mp hm).1

/-! ## Reading one line -/

section Read

variable [DecidableEq α]

/-- Take one line off a stream: its text, whether a line end closed it, and what follows. -/
def readLine : List α → List α × Bool × List α
  | [] => ([], false, [])
  | x :: xs =>
    if x = lf then ([], true, xs)
    else if x = cr then
      match xs with
      -- a CR the stream ends in
      | [] => ([], true, [])
      | y :: ys => if y = lf then ([], true, ys) else ([], true, y :: ys)
    else (x :: (readLine xs).1, (readLine xs).2)

@[simp] theorem readLine_nil : readLine ([] : List α) = ([], false, []) := rfl

theorem readLine_cons_of_ne {x : α} (hcr : x ≠ cr) (hlf : x ≠ lf) (xs : List α) :
    readLine (x :: xs) = (x :: (readLine xs).1, (readLine xs).2) := by
  simp [readLine, hcr, hlf]

/-- A line closed by CRLF is read off whole. -/
theorem readLine_crlf {l : List α} (hl : BreakFree l) (rest : List α) :
    readLine (l ++ (crlf ++ rest)) = (l, true, rest) := by
  induction l with
  | nil => simp [readLine, crlf, cr_ne_lf]
  | cons x l ih =>
      obtain ⟨⟨hcr, hlf⟩, hl'⟩ := breakFree_cons.mp hl
      rw [List.cons_append, readLine_cons_of_ne hcr hlf, ih hl']

/-- A line the stream ends in is read with no line end. -/
theorem readLine_breakFree {l : List α} (hl : BreakFree l) : readLine l = (l, false, []) := by
  induction l with
  | nil => rfl
  | cons x l ih =>
      obtain ⟨⟨hcr, hlf⟩, hl'⟩ := breakFree_cons.mp hl
      rw [readLine_cons_of_ne hcr hlf, ih hl']

/-- A CR the stream ends in closes the line. -/
theorem readLine_cr {l : List α} (hl : BreakFree l) : readLine (l ++ [cr]) = (l, true, []) := by
  induction l with
  | nil => simp [readLine, cr_ne_lf]
  | cons x l ih =>
      obtain ⟨⟨hcr, hlf⟩, hl'⟩ := breakFree_cons.mp hl
      rw [List.cons_append, readLine_cons_of_ne hcr hlf, ih hl']

/-- Whatever the stream, a line that is read has no line end in it. -/
theorem breakFree_readLine (l : List α) : BreakFree (readLine l).1 := by
  induction l with
  | nil => exact breakFree_nil
  | cons x xs ih =>
      by_cases hlf : x = lf
      · simp [readLine, hlf]
      · by_cases hcr : x = cr
        · cases xs with
          | nil => simp [readLine, hcr, cr_ne_lf]
          | cons y ys => by_cases hy : y = lf <;> simp [readLine, hcr, cr_ne_lf, hy]
        · rw [readLine_cons_of_ne hcr hlf]
          exact breakFree_cons.mpr ⟨⟨hcr, hlf⟩, ih⟩

/-- Reading a line of a non-empty stream takes something off it. -/
theorem readLine_shorter {l : List α} (hl : l ≠ []) : (readLine l).2.2.length < l.length := by
  induction l with
  | nil => exact absurd rfl hl
  | cons x xs ih =>
      by_cases hlf : x = lf
      · simp [readLine, hlf]
      · by_cases hcr : x = cr
        · cases xs with
          | nil => simp [readLine, hcr, cr_ne_lf]
          | cons y ys =>
              by_cases hy : y = lf
              · simp only [readLine, hcr, cr_ne_lf, hy, if_true, if_false, List.length_cons]
                omega
              · simp [readLine, hcr, cr_ne_lf, hy]
        · rw [readLine_cons_of_ne hcr hlf]
          cases xs with
          | nil => simp
          | cons y ys =>
              have := ih (by simp)
              simp only [List.length_cons] at this ⊢
              omega

end Read

/-! ## Cutting a line -/

/-- A strict prefix of a CRLF-closed line is a prefix of its text, or all of it and a lone CR. -/
theorem isPrefix_crlf_cases {p l : List α} (h : p <+: l ++ crlf) (hlt : p.length < l.length + 2) :
    p <+: l ∨ p = l ++ [cr] := by
  obtain ⟨k, hk⟩ := h
  by_cases hle : p.length ≤ l.length
  · left
    have htake := congrArg (List.take p.length) hk
    rw [List.take_left, List.take_append_of_le_length hle] at htake
    exact htake ▸ List.take_prefix _ _
  · right
    have hlen : p.length = l.length + 1 := by omega
    have htake := congrArg (List.take (l.length + 1)) hk
    rw [← hlen, List.take_left, hlen, List.take_length_add_append] at htake
    simpa [crlf] using htake

/-! ## Dot-stuffed blocks -/

theorem breakFree_dot : BreakFree [(dot : α)] := by
  simp [dot_ne_cr, dot_ne_lf]

/-- The lines one after the other, each closed by CRLF. -/
def encodeLines (ls : List (List α)) : List α := ls.flatMap (· ++ crlf)

@[simp] theorem encodeLines_nil : encodeLines ([] : List (List α)) = [] := rfl

@[simp] theorem encodeLines_cons (l : List α) (ls : List (List α)) :
    encodeLines (l :: ls) = l ++ (crlf ++ encodeLines ls) := by
  simp [encodeLines]

theorem encodeLines_append (ls ls' : List (List α)) :
    encodeLines (ls ++ ls') = encodeLines ls ++ encodeLines ls' := List.flatMap_append

section Block

variable [DecidableEq α]

/-- One more dot before a line that begins with one. -/
def stuff : List α → List α
  | [] => []
  | x :: l => if x = dot then dot :: x :: l else x :: l

/-- The dot-stuffed block of a list of lines, its terminating line included. -/
def encodeBlock (ls : List (List α)) : List α := encodeLines (ls.map stuff) ++ dot :: crlf

/-- **A stuffed line is never the terminator.** -/
theorem stuff_ne_dot (l : List α) : stuff l ≠ [dot] := by
  cases l with
  | nil => simp [stuff]
  | cons x l => by_cases hx : x = dot <;> simp [stuff, hx]

theorem stuff_eq_self_iff {l : List α} : stuff l = l ↔ l.head? ≠ some dot := by
  cases l with
  | nil => simp [stuff]
  | cons x l => by_cases hx : x = dot <;> simp [stuff, hx]

theorem BreakFree.stuff {l : List α} (hl : BreakFree l) : BreakFree (stuff l) := by
  cases l with
  | nil => exact hl
  | cons x l =>
      by_cases hx : x = dot
      · simp only [Lines.stuff, hx, if_true, breakFree_cons]
        exact ⟨⟨dot_ne_cr, dot_ne_lf⟩, ⟨dot_ne_cr, dot_ne_lf⟩, (breakFree_cons.mp hl).2⟩
      · simpa only [Lines.stuff, hx, if_false] using hl

/-- Stuffing leaves a list of lines as it is exactly when none of them begins with a dot. -/
theorem map_stuff_eq_self_iff {ls : List (List α)} :
    ls.map stuff = ls ↔ ∀ l ∈ ls, l.head? ≠ some dot := by
  induction ls with
  | nil => simp
  | cons l ls ih => simp [stuff_eq_self_iff, ih]

@[simp] theorem encodeBlock_cons (l : List α) (ls : List (List α)) :
    encodeBlock (l :: ls) = stuff l ++ (crlf ++ encodeBlock ls) := by
  simp [encodeBlock]

/-- The lines a block is made of on the wire, the terminator among them. -/
def blockLines (ls : List (List α)) : List (List α) := ls.map stuff ++ [[dot]]

theorem encodeBlock_eq (ls : List (List α)) : encodeBlock ls = encodeLines (blockLines ls) := by
  simp [encodeBlock, encodeLines, blockLines]

theorem breakFree_blockLines {ls : List (List α)} (hls : ∀ l ∈ ls, BreakFree l) :
    ∀ l ∈ blockLines ls, BreakFree l := by
  intro l hl
  rcases List.mem_append.mp hl with h | h
  · obtain ⟨l', hl', rfl⟩ := List.mem_map.mp h
    exact (hls l' hl').stuff
  · rw [List.mem_singleton.mp h]
    exact breakFree_dot

/-! ## Encodings are read in one way only -/

theorem line_unique {l l' rest rest' : List α} (hl : BreakFree l) (hl' : BreakFree l')
    (h : l ++ (crlf ++ rest) = l' ++ (crlf ++ rest')) : l = l' ∧ rest = rest' := by
  have hread := congrArg readLine h
  rw [readLine_crlf hl, readLine_crlf hl'] at hread
  exact ⟨congrArg Prod.fst hread, congrArg (·.2.2) hread⟩

theorem encodeLines_injective {ls ls' : List (List α)} (hls : ∀ l ∈ ls, BreakFree l)
    (hls' : ∀ l ∈ ls', BreakFree l) (h : encodeLines ls = encodeLines ls') : ls = ls' := by
  induction ls generalizing ls' with
  | nil =>
      cases ls' with
      | nil => rfl
      | cons l' ls' => exact absurd h (by simp [crlf])
  | cons l ls ih =>
      cases ls' with
      | nil => exact absurd h (by simp [crlf])
      | cons l' ls' =>
          obtain ⟨hl, hmore⟩ := List.forall_mem_cons.mp hls
          obtain ⟨hl', hmore'⟩ := List.forall_mem_cons.mp hls'
          rw [encodeLines_cons, encodeLines_cons] at h
          obtain ⟨rfl, hrest⟩ := line_unique hl hl' h
          rw [ih hmore hmore' hrest]

theorem stuff_injective {l l' : List α} (h : stuff l = stuff l') : l = l' := by
  -- the first letter says whether a dot has been put before it
  cases l with
  | nil => cases l' <;> simp [stuff] at h ⊢; split at h <;> simp at h
  | cons x l =>
      cases l' with
      | nil => simp [stuff] at h; split at h <;> simp at h
      | cons x' l' =>
          by_cases hx : x = dot <;> by_cases hx' : x' = dot <;> simp_all [stuff]

/-- **A block is the encoding of one list of lines.** -/
theorem encodeBlock_injective {ls ls' : List (List α)} (hls : ∀ l ∈ ls, BreakFree l)
    (hls' : ∀ l ∈ ls', BreakFree l) (h : encodeBlock ls = encodeBlock ls') : ls = ls' := by
  rw [encodeBlock_eq, encodeBlock_eq] at h
  have hlines := encodeLines_injective (breakFree_blockLines hls) (breakFree_blockLines hls') h
  have hstuffed : ls.map stuff = ls'.map stuff := List.append_cancel_right hlines
  exact List.map_injective_iff.mpr (fun _ _ => stuff_injective) hstuffed

end Block

end Lines
