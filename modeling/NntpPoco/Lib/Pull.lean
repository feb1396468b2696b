import Mathlib.Data.List.Basic
import Mathlib.Tactic.Common

/-!
# `Lib.Pull` — byte-at-a-time decoders and what consumes them

A `Decoder` stands for a decoding input stream: asked for its next letter it may take any number of
letters from the stream below before it gives one. `Gets` is one such request, `Feeds` all of them up
to the end of file. A `Consumer` is a sequential parser: after each letter it asks for another or
stops, so what it does to a stream is a function of the stream's content (`Consumer.run`).
-/

namespace Pull

variable {α μ β : Type}

/-! ## Decoders -/

/-- What a decoder does next: give a letter (`none`: end of file), or take one from the stream below
    (which may answer with its own end of file). -/
inductive Next (α μ : Type)
  | give (c : Option α) (m : μ)
  | take (k : Option α → μ)

/-- A decoding stream: its initial state and its transitions. -/
structure Decoder (α μ : Type) where
  init : μ
  next : μ → Next α μ

namespace Decoder

variable (d : Decoder α μ) (closed : Bool)

/-- One letter asked of the decoder in state `m`, with `raw` still to come from below: it gives `c`
    and leaves `m'` and `raw'`. Past the end of `raw` there is an end of file only where the stream
    below is `closed`. -/
inductive Gets : μ → List α → Option α → μ → List α → Prop
  | give {m raw c m'} (h : d.next m = .give c m') : Gets m raw c m' raw
  | take {m k b raw c m' raw'} (h : d.next m = .take k) (hg : Gets (k (some b)) raw c m' raw') :
      Gets m (b :: raw) c m' raw'
  | takeEnd {m k c m' raw'} (h : d.next m = .take k) (hc : closed = true)
      (hg : Gets (k none) [] c m' raw') : Gets m [] c m' raw'

/-- Asked again and again, the decoder gives the letters `content`, then more may come. -/
inductive Delivers : μ → List α → List α → μ → List α → Prop
  | nil {m raw} : Delivers m raw [] m raw
  | cons {m raw b m₁ raw₁ content m' raw'} (hg : d.Gets closed m raw (some b) m₁ raw₁)
      (hd : Delivers m₁ raw₁ content m' raw') : Delivers m raw (b :: content) m' raw'

/-- Asked until its end of file, the decoder gives exactly `content` and leaves `raw'` below. -/
inductive Feeds : μ → List α → List α → List α → Prop
  | eof {m raw m' raw'} (hg : d.Gets closed m raw none m' raw') : Feeds m raw [] raw'
  | more {m raw b m₁ raw₁ content raw'} (hg : d.Gets closed m raw (some b) m₁ raw₁)
      (hf : Feeds m₁ raw₁ content raw') : Feeds m raw (b :: content) raw'

variable {d closed}

/-! ### How an evaluation of `Feeds` is built up -/

theorem Feeds.take {m : μ} {k : Option α → μ} {b : α} {raw content raw' : List α}
    (h : d.next m = .take k) (hf : d.Feeds closed (k (some b)) raw content raw') :
    d.Feeds closed m (b :: raw) content raw' := by
  cases hf with
  | eof hg => exact .eof (.take h hg)
  | more hg hf => exact .more (.take h hg) hf

theorem Feeds.takeEnd {m : μ} {k : Option α → μ} {content raw' : List α} (h : d.next m = .take k)
    (hc : closed = true) (hf : d.Feeds closed (k none) [] content raw') :
    d.Feeds closed m [] content raw' := by
  cases hf with
  | eof hg => exact .eof (.takeEnd h hc hg)
  | more hg hf => exact .more (.takeEnd h hc hg) hf

/-! ### Determinism -/

theorem Gets.unique {m m' m'' : μ} {raw raw' raw'' : List α} {c c' : Option α}
    (h : d.Gets closed m raw c m' raw') (h' : d.Gets closed m raw c' m'' raw'') :
    c = c' ∧ m' = m'' ∧ raw' = raw'' := by
  induction h with
  | give h =>
      cases h' with
      | give h' => rw [h] at h'; cases h'; exact ⟨rfl, rfl, rfl⟩
      | take h' _ => rw [h] at h'; cases h'
      | takeEnd h' _ _ => rw [h] at h'; cases h'
  | take h _ ih =>
      cases h' with
      | give h' => rw [h] at h'; cases h'
      | take h' hg' => rw [h] at h'; cases h'; exact ih hg'
  | takeEnd h _ _ ih =>
      cases h' with
      | give h' => rw [h] at h'; cases h'
      | takeEnd h' _ hg' => rw [h] at h'; cases h'; exact ih hg'

theorem Delivers.unique {m m' m'' : μ} {raw raw' raw'' content : List α}
    (h : d.Delivers closed m raw content m' raw') (h' : d.Delivers closed m raw content m'' raw'') :
    m' = m'' ∧ raw' = raw'' := by
  induction h with
  | nil => cases h'; exact ⟨rfl, rfl⟩
  | cons hg _ ih =>
      cases h' with
      | cons hg' hd' =>
          obtain ⟨_, rfl, rfl⟩ := hg.unique hg'
          exact ih hd'

theorem Feeds.unique {m : μ} {raw raw' raw'' content content' : List α}
    (h : d.Feeds closed m raw content raw') (h' : d.Feeds closed m raw content' raw'') :
    content = content' ∧ raw' = raw'' := by
  -- letter by letter: each `Gets` is determined, and where one feeds the end so does the other
  induction h generalizing content' with
  | eof hg =>
      cases h' with
      | eof hg' => exact ⟨rfl, (hg.unique hg').2.2⟩
      | more hg' _ => exact absurd (hg.unique hg').1 (by simp)
  | more hg _ ih =>
      cases h' with
      | eof hg' => exact absurd (hg.unique hg').1 (by simp)
      | more hg' hf' =>
          obtain ⟨hb, rfl, rfl⟩ := hg.unique hg'
          obtain ⟨hc, hr⟩ := ih hf'
          exact ⟨by rw [Option.some.inj hb, hc], hr⟩

end Decoder

/-! ## Consumers -/

/-- A sequential parser: after the letters `seen` it stops with a result or asks for one more
    (`step seen = none`); at the end of file it stops (`finish`). -/
structure Consumer (α β : Type) where
  step : List α → Option β
  finish : List α → β

/-- What a consumer makes of a stream's content. -/
structure Consumed (α β : Type) where
  /-- the letters it took, from the first it ever saw -/
  taken : List α
  /-- the letters it left -/
  left : List α
  /-- whether it has seen the end of file -/
  atEnd : Bool
  result : β

namespace Consumer

variable (p : Consumer α β)

/-- Run the consumer, having `seen` some letters, on the content that is left. -/
def run (seen : List α) : List α → Consumed α β
  | [] =>
    match p.step seen with
    | some r => ⟨seen, [], false, r⟩
    | none => ⟨seen, [], true, p.finish seen⟩
  | b :: rest =>
    match p.step seen with
    | some r => ⟨seen, b :: rest, false, r⟩
    | none => run (seen ++ [b]) rest

theorem run_of_some {seen : List α} {r : β} (h : p.step seen = some r) (content : List α) :
    p.run seen content = ⟨seen, content, false, r⟩ := by
  cases content <;> simp [run, h]

theorem run_nil_of_none {seen : List α} (h : p.step seen = none) :
    p.run seen [] = ⟨seen, [], true, p.finish seen⟩ := by
  simp [run, h]

theorem run_cons_of_none {seen : List α} (h : p.step seen = none) (b : α) (content : List α) :
    p.run seen (b :: content) = p.run (seen ++ [b]) content := by
  simp [run, h]

end Consumer

end Pull
