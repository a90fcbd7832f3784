/-
  Framing a stream by a delimiter when the stream arrives in chunks.

  A receiver that has not yet seen the end of a line holds the pieces of it that
  have arrived.  `cutLines d pending chunks` is what the chunks complete: each
  line as the list of its pieces, none of them empty, and the pieces of the line
  left unfinished.  Joining the pieces gives the lines of the stream itself
  (`flatten_cutLines`), however it was cut, and a stream that arrives in one
  chunk has each line in one piece (`length_le_one_of_mem_cutChunk`).
-/
import Mathlib.Data.List.Infix
import Mathlib.Tactic.Common

namespace Framing

variable {α : Type*}

/-! ### Pieces -/

/-- A part of a line as a list of pieces: nothing is reported for an empty part. -/
def piece (l : List α) : List (List α) := if l = [] then [] else [l]

@[simp] theorem flatten_piece (l : List α) : (piece l).flatten = l := by
  unfold piece
  split
  · next h => simp [h]
  · simp

theorem length_piece_le_one (l : List α) : (piece l).length ≤ 1 := by
  unfold piece
  split <;> simp

theorem ne_nil_of_mem_piece {l p : List α} (h : p ∈ piece l) : p ≠ [] := by
  unfold piece at h
  split at h
  · simp at h
  · next hl =>
    obtain rfl : p = l := by simpa using h
    exact hl

/-- At most one piece is the line itself. -/
theorem eq_piece_flatten {ps : List (List α)} (hne : [] ∉ ps) (h : ps.length ≤ 1) :
    ps = piece ps.flatten := by
  match ps, h with
  | [], _ => rfl
  | [p], _ =>
    have hp : p ≠ [] := fun e => hne (by simp [e])
    simp [piece, hp]

/-- The parts of a chunk between delimiters, the first continuing the pending pieces: the lines that
end in it and the pieces of the one that does not. -/
def cutParts (pending : List (List α)) : List (List α) → List (List (List α)) × List (List α)
  | [] => ([], pending)
  | [l] => ([], pending ++ piece l)
  | l :: l' :: ls =>
    let r := cutParts [] (l' :: ls)
    ((pending ++ piece l) :: r.1, r.2)

/-- Joining the pieces of the parts. -/
theorem flatten_cutParts (pending : List (List α)) {parts : List (List α)} (h : parts ≠ []) :
    (cutParts pending parts).1.map List.flatten ++ [(cutParts pending parts).2.flatten] =
      parts.modifyHead (pending.flatten ++ ·) := by
  induction parts generalizing pending with
  | nil => exact absurd rfl h
  | cons l ls ih =>
    cases ls with
    | nil => simp [cutParts]
    | cons l' ls =>
      have := ih [] (by simp)
      simp only [cutParts, List.map_cons, List.cons_append, this]
      simp

theorem length_le_one_of_mem_cutParts {parts : List (List α)} {ps : List (List α)}
    (h : ps ∈ (cutParts [] parts).1) : ps.length ≤ 1 := by
  induction parts with
  | nil => simp [cutParts] at h
  | cons l ls ih =>
    cases ls with
    | nil => simp [cutParts] at h
    | cons l' ls =>
      simp only [cutParts, List.nil_append, List.mem_cons] at h
      rcases h with rfl | h
      · exact length_piece_le_one l
      · exact ih h

theorem nil_not_mem_cutParts {pending : List (List α)} (hp : [] ∉ pending)
    (parts : List (List α)) :
    (∀ ps ∈ (cutParts pending parts).1, [] ∉ ps) ∧ [] ∉ (cutParts pending parts).2 := by
  have hpiece : ∀ l : List α, [] ∉ pending ++ piece l := by
    intro l h
    rcases List.mem_append.mp h with h | h
    · exact hp h
    · exact ne_nil_of_mem_piece h rfl
  induction parts generalizing pending with
  | nil => simpa [cutParts] using hp
  | cons l ls ih =>
    cases ls with
    | nil => simpa [cutParts] using hpiece l
    | cons l' ls =>
      have hnil : ([] : List α) ∉ ([] : List (List α)) := List.not_mem_nil
      obtain ⟨h₁, h₂⟩ := ih hnil (fun l h => ne_nil_of_mem_piece h rfl)
      refine ⟨?_, h₂⟩
      intro ps hps
      rcases List.mem_cons.mp hps with rfl | hps
      · exact hpiece l
      · exact h₁ ps hps

variable [BEq α] {d : α}

/-! ### Splitting a text that grows -/

/-- A beginning without the delimiter belongs to the first line. -/
theorem splitOn_append_of_not_mem [LawfulBEq α] {s : List α} (hs : d ∉ s) (t : List α) :
    (s ++ t).splitOn d = (t.splitOn d).modifyHead (s ++ ·) := by
  induction s with
  | nil =>
    cases h : t.splitOn d with
    | nil => exact absurd h (List.splitOn_ne_nil d t)
    | cons l ls => simp [h]
  | cons a s ih =>
    obtain ⟨had, hs'⟩ : d ≠ a ∧ d ∉ s := by simpa using hs
    have hne : (a == d) = false := by simpa using Ne.symm had
    simp only [List.cons_append, List.splitOn_cons_eq_if_modifyHead, hne, Bool.false_eq_true,
      if_false, ih hs', List.modifyHead_modifyHead]
    rfl

/-- Text that follows goes to the last, unfinished line. -/
theorem splitOn_append {s : List α} {ls : List (List α)} {l : List α}
    (h : s.splitOn d = ls ++ [l]) (t : List α) :
    (s ++ t).splitOn d = ls ++ (l ++ t).splitOn d := by
  induction s generalizing ls l with
  | nil =>
    obtain ⟨rfl, rfl⟩ : ls = [] ∧ l = [] := by
      cases ls with
      | nil => simpa using h.symm
      | cons a ls => simp at h
    simp
  | cons a s ih =>
    obtain ⟨ls', l', hs⟩ :=
      (List.eq_nil_or_concat (s.splitOn d)).resolve_left (List.splitOn_ne_nil d s)
    rw [List.concat_eq_append] at hs
    rw [List.splitOn_cons_eq_if_modifyHead, hs] at h
    rw [List.cons_append, List.splitOn_cons_eq_if_modifyHead, ih hs]
    by_cases had : (a == d) = true
    · rw [if_pos had, ← List.cons_append, List.append_singleton_inj] at h
      obtain ⟨rfl, rfl⟩ := h
      rw [if_pos had, List.cons_append]
    · rw [if_neg had] at h ⊢
      cases ls' with
      | nil =>
        rw [List.nil_append, List.modifyHead_cons, ← List.nil_append [a :: l'],
          List.append_singleton_inj] at h
        obtain ⟨rfl, rfl⟩ := h
        rw [List.nil_append, List.nil_append, List.cons_append,
          List.splitOn_cons_eq_if_modifyHead, if_neg had]
      | cons b ls' =>
        rw [List.cons_append, List.modifyHead_cons, ← List.cons_append,
          List.append_singleton_inj] at h
        obtain ⟨rfl, rfl⟩ := h
        rfl

/-- A line does not hold the delimiter. -/
theorem not_mem_of_mem_splitOn [LawfulBEq α] {s l : List α} (h : l ∈ s.splitOn d) : d ∉ l := by
  induction s generalizing l with
  | nil =>
    obtain rfl : l = [] := by simpa using h
    simp
  | cons a s ih =>
    rw [List.splitOn_cons_eq_if_modifyHead] at h
    by_cases had : (a == d) = true
    · rw [if_pos had, List.mem_cons] at h
      rcases h with rfl | h
      · simp
      · exact ih h
    · rw [if_neg had] at h
      cases hs : s.splitOn d with
      | nil => exact absurd hs (List.splitOn_ne_nil d s)
      | cons b ls =>
        rw [hs, List.modifyHead_cons, List.mem_cons] at h
        rcases h with rfl | h
        · have hb : d ∉ b := ih (by simp [hs])
          have hda : d ≠ a := fun e => had (by simp [e])
          simp [hda, hb]
        · exact ih (by simp [hs, h])

/-- What a line holds, the text holds. -/
theorem mem_of_mem_splitOn {s l : List α} (h : l ∈ s.splitOn d) {x : α} (hx : x ∈ l) : x ∈ s := by
  induction s generalizing l with
  | nil =>
    obtain rfl : l = [] := by simpa using h
    simp at hx
  | cons a s ih =>
    rw [List.splitOn_cons_eq_if_modifyHead] at h
    obtain ⟨b, ls, hs⟩ := List.exists_cons_of_ne_nil (List.splitOn_ne_nil d s)
    by_cases had : (a == d) = true
    · rw [if_pos had, List.mem_cons] at h
      rcases h with rfl | h
      · simp at hx
      · simp [ih h hx]
    · rw [if_neg had, hs, List.modifyHead_cons, List.mem_cons] at h
      rcases h with rfl | h
      · rcases List.mem_cons.mp hx with rfl | hx
        · simp
        · simp [ih (by simp [hs]) hx]
      · simp [ih (by simp [hs, h]) hx]

/-- The line before a delimiter is a line of the text that is not the last. -/
theorem exists_splitOn_of_append_cons [LawfulBEq α] (s t : List α) :
    ∃ l, l ∈ s.splitOn d ∧ l ∈ ((s ++ d :: t).splitOn d).dropLast := by
  obtain ⟨ls, l, hs⟩ :=
    (List.eq_nil_or_concat (s.splitOn d)).resolve_left (List.splitOn_ne_nil d s)
  rw [List.concat_eq_append] at hs
  have hl : d ∉ l := not_mem_of_mem_splitOn (s := s) (by simp [hs])
  refine ⟨l, by simp [hs], ?_⟩
  obtain ⟨b, bs, ht⟩ := List.exists_cons_of_ne_nil (List.splitOn_ne_nil d t)
  rw [splitOn_append hs, List.splitOn_append_cons_self_of_not_mem hl, ht,
    List.dropLast_append_of_ne_nil (by simp), List.dropLast_cons_of_ne_nil (by simp)]
  simp

/-! ### Chunks -/

/-- The lines that end in a chunk, in pieces, and the pieces of the line it leaves unfinished. -/
def cutChunk (d : α) (pending : List (List α)) (chunk : List α) :
    List (List (List α)) × List (List α) :=
  cutParts pending (chunk.splitOn d)

/-- The lines that end in a list of chunks, and the pieces of the line they leave unfinished. -/
def cutLines (d : α) (pending : List (List α)) :
    List (List α) → List (List (List α)) × List (List α)
  | [] => ([], pending)
  | c :: cs =>
    let r := cutChunk d pending c
    let t := cutLines d r.2 cs
    (r.1 ++ t.1, t.2)

/-- One chunk more. -/
theorem cutLines_concat (pending : List (List α)) (chunks : List (List α)) (chunk : List α) :
    cutLines d pending (chunks ++ [chunk]) =
      ((cutLines d pending chunks).1 ++ (cutChunk d (cutLines d pending chunks).2 chunk).1,
        (cutChunk d (cutLines d pending chunks).2 chunk).2) := by
  induction chunks generalizing pending with
  | nil => simp [cutLines]
  | cons c cs ih => simp [cutLines, ih]

theorem flatten_cutChunk [LawfulBEq α] {pending : List (List α)} (hp : d ∉ pending.flatten) (chunk : List α) :
    (cutChunk d pending chunk).1.map List.flatten ++ [(cutChunk d pending chunk).2.flatten] =
      (pending.flatten ++ chunk).splitOn d := by
  rw [cutChunk, flatten_cutParts _ (List.splitOn_ne_nil d chunk), splitOn_append_of_not_mem hp]

/-- The line left unfinished does not hold the delimiter. -/
theorem not_mem_cutChunk [LawfulBEq α] {pending : List (List α)} (hp : d ∉ pending.flatten) (chunk : List α) :
    d ∉ (cutChunk d pending chunk).2.flatten := by
  refine not_mem_of_mem_splitOn (s := pending.flatten ++ chunk) ?_
  rw [← flatten_cutChunk hp]
  simp

/-- **Joining the pieces gives the lines of the stream**, however it was cut into chunks. -/
theorem flatten_cutLines [LawfulBEq α] {pending : List (List α)} (hp : d ∉ pending.flatten)
    (chunks : List (List α)) :
    (cutLines d pending chunks).1.map List.flatten ++ [(cutLines d pending chunks).2.flatten] =
      (pending.flatten ++ chunks.flatten).splitOn d := by
  induction chunks generalizing pending with
  | nil => simp [cutLines, List.splitOn_eq_singleton hp]
  | cons c cs ih =>
    have hc := flatten_cutChunk hp c
    have hih := ih (not_mem_cutChunk hp c)
    simp only [cutLines, List.map_append, List.append_assoc, List.flatten_cons] at hih ⊢
    rw [hih, ← splitOn_append hc.symm, List.append_assoc]

/-- The lines of a stream, joined from their pieces, do not depend on the chunks. -/
theorem map_flatten_cutLines [LawfulBEq α] (chunks : List (List α)) :
    (cutLines d [] chunks).1.map List.flatten = (cutChunk d [] chunks.flatten).1.map List.flatten := by
  have hnil : d ∉ ([] : List (List α)).flatten := List.not_mem_nil
  have h₁ := flatten_cutLines hnil chunks
  have h₂ := flatten_cutChunk hnil chunks.flatten
  rw [← h₂, List.append_singleton_inj] at h₁
  exact h₁.1

/-- In a stream that arrives in one chunk each line is in one piece. -/
theorem length_le_one_of_mem_cutChunk {chunk : List α} {ps : List (List α)}
    (h : ps ∈ (cutChunk d [] chunk).1) : ps.length ≤ 1 :=
  length_le_one_of_mem_cutParts h

/-- No piece is empty. -/
theorem nil_not_mem_cutLines {pending : List (List α)} (hp : [] ∉ pending)
    (chunks : List (List α)) : ∀ ps ∈ (cutLines d pending chunks).1, [] ∉ ps := by
  induction chunks generalizing pending with
  | nil => simp [cutLines]
  | cons c cs ih =>
    obtain ⟨h₁, h₂⟩ := nil_not_mem_cutParts hp (c.splitOn d)
    intro ps hps
    rcases List.mem_append.mp hps with hps | hps
    · exact h₁ ps hps
    · exact ih h₂ ps hps

/-! ### Lines that are joined -/

omit [BEq α] in
/-- The end parts of lines that are joined follow a delimiter. -/
theorem mem_map_intercalate_tails {d : α} {t : List α} {ls : List (List α)} (hls : ∀ l ∈ ls, d ∉ l)
    (hne : ls ≠ []) : t ∈ ls.tails.dropLast.map ([d].intercalate ·) ↔
      t = [d].intercalate ls ∨ ∃ s, [d].intercalate ls = s ++ d :: t := by
  induction ls with
  | nil => exact absurd rfl hne
  | cons l ls ih =>
    have hl : d ∉ l := hls l (List.mem_cons_self ..)
    cases ls with
    | nil =>
      have hno : ¬∃ s, [d].intercalate [l] = s ++ d :: t := by
        rintro ⟨s, hs⟩
        rw [List.intercalate_singleton] at hs
        exact hl (by simp [hs])
      show t ∈ [[d].intercalate [l]] ↔ _
      rw [List.mem_singleton, or_iff_left hno]
    | cons l' ls =>
      have ih := ih (fun m hm => hls m (List.mem_cons_of_mem _ hm)) (List.cons_ne_nil _ _)
      have hjoin : [d].intercalate (l :: l' :: ls) = l ++ d :: [d].intercalate (l' :: ls) := by
        rw [List.intercalate_cons_cons, List.append_assoc, List.singleton_append]
      have hcons : (l :: l' :: ls).tails.dropLast = (l :: l' :: ls) :: (l' :: ls).tails.dropLast := by
        rw [List.tails_cons, List.dropLast_cons_of_ne_nil (by simp)]
      rw [hcons, List.map_cons, List.mem_cons, ih, hjoin]
      refine or_congr_right ?_
      constructor
      · rintro (rfl | ⟨s, hs⟩)
        · exact ⟨l, rfl⟩
        · exact ⟨l ++ d :: s, by rw [hs]; simp⟩
      · rintro ⟨s, hs⟩
        -- the first delimiter stands behind the first line
        rcases List.append_eq_append_iff.mp hs with ⟨u, rfl, hu⟩ | ⟨u, rfl, hu⟩
        · cases u with
          | nil => exact .inl (List.cons.inj hu).2.symm
          | cons a u => exact .inr ⟨u, (List.cons.inj hu).2⟩
        · cases u with
          | nil => exact .inl (List.cons.inj hu).2
          | cons a u =>
            obtain ⟨rfl, -⟩ := List.cons.inj hu
            exact absurd (by simp) hl

end Framing
