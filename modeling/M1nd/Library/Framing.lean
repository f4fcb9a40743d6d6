import Mathlib.Data.List.Basic

namespace M1nd.Library.Framing

variable {α : Type}

-- Lines, each closed by the delimiter.
def frames (delimiter : α) (lines : List (List α)) : List α :=
  lines.flatMap fun line => line ++ [delimiter]

variable {delimiter : α} {lines : List (List α)} {line tail symbols : List α}

@[simp]
theorem frames_nil : frames delimiter [] = [] := rfl

@[simp]
theorem frames_cons :
    frames delimiter (line :: lines) = line ++ delimiter :: frames delimiter lines := by
  simp [frames]

theorem frames_append (more : List (List α)) :
    frames delimiter (lines ++ more) = frames delimiter lines ++ frames delimiter more := by
  simp [frames]

theorem frames_concat :
    frames delimiter (lines ++ [line]) = frames delimiter lines ++ (line ++ [delimiter]) := by
  simp [frames]

-- A cut keeps the frames before it and leaves a tail that holds no delimiter.
theorem take_frames_append (hlines : ∀ line ∈ lines, delimiter ∉ line)
    (htail : delimiter ∉ tail) (count : Nat) :
    ∃ kept rest, (frames delimiter lines ++ tail).take count =
        frames delimiter (lines.take kept) ++ rest ∧
      kept ≤ lines.length ∧ delimiter ∉ rest := by
  induction lines generalizing count with
  | nil =>
      exact ⟨0, tail.take count, by simp, Nat.le_refl _, fun h => htail (List.mem_of_mem_take h)⟩
  | cons line lines ih =>
      obtain ⟨hline, hlines⟩ := List.forall_mem_cons.mp hlines
      by_cases hcount : count ≤ line.length
      · refine ⟨0, line.take count, ?_, Nat.zero_le _, fun h => hline (List.mem_of_mem_take h)⟩
        rw [frames_cons, List.append_assoc, List.take_append_of_le_length hcount]
        simp
      · obtain ⟨kept, rest, hkept, hle, hrest⟩ := ih hlines (count - line.length - 1)
        refine ⟨kept + 1, rest, ?_, by simpa using hle, hrest⟩
        have hsucc : count = line.length + (count - line.length - 1 + 1) := by omega
        rw [frames_cons, List.append_assoc, List.take_append, List.take_of_length_le (by omega),
          List.cons_append]
        rw [show count - line.length = count - line.length - 1 + 1 by omega,
          List.take_succ_cons, hkept]
        simp

-- A part of one frame is the whole frame or holds no delimiter.
theorem take_frame (hline : delimiter ∉ line) (count : Nat) :
    (line ++ [delimiter]).take count = line ++ [delimiter] ∨
      delimiter ∉ (line ++ [delimiter]).take count := by
  by_cases hcount : count ≤ line.length
  · rw [List.take_append_of_le_length hcount]
    exact .inr fun h => hline (List.mem_of_mem_take h)
  · exact .inl (List.take_of_length_le (by simp; omega))

variable [DecidableEq α]

-- Cuts after every delimiter and keeps the delimiters.
def splitInclusive (delimiter : α) : List α → List (List α)
  | [] => []
  | symbol :: symbols =>
      if symbol = delimiter then [symbol] :: splitInclusive delimiter symbols
      else
        match splitInclusive delimiter symbols with
        | [] => [[symbol]]
        | frame :: rest => (symbol :: frame) :: rest

def rposition (delimiter : α) : List α → Option Nat
  | [] => none
  | symbol :: symbols =>
      match rposition delimiter symbols with
      | some index => some (index + 1)
      | none => if symbol = delimiter then some 0 else none

-- The length of the part made of complete frames.
def completeLen (delimiter : α) (symbols : List α) : Nat :=
  if symbols.getLast? = some delimiter then symbols.length
  else
    match rposition delimiter symbols with
    | none => 0
    | some index => index + 1

theorem splitInclusive_append_delimiter (hline : delimiter ∉ line) :
    splitInclusive delimiter (line ++ delimiter :: symbols) =
      (line ++ [delimiter]) :: splitInclusive delimiter symbols := by
  induction line with
  | nil => simp [splitInclusive]
  | cons symbol line ih =>
      obtain ⟨hne, hline⟩ := List.ne_and_not_mem_of_not_mem_cons hline
      simp only [List.cons_append, splitInclusive, ih hline, if_neg (Ne.symm hne)]

theorem splitInclusive_frames (hlines : ∀ line ∈ lines, delimiter ∉ line) :
    splitInclusive delimiter (frames delimiter lines) =
      lines.map fun line => line ++ [delimiter] := by
  induction lines with
  | nil => rfl
  | cons line lines ih =>
      obtain ⟨hline, hlines⟩ := List.forall_mem_cons.mp hlines
      rw [frames_cons, splitInclusive_append_delimiter hline, ih hlines, List.map_cons]

theorem rposition_of_not_mem (htail : delimiter ∉ tail) : rposition delimiter tail = none := by
  induction tail with
  | nil => rfl
  | cons symbol tail ih =>
      obtain ⟨hne, htail⟩ := List.ne_and_not_mem_of_not_mem_cons htail
      simp [rposition, ih htail, Ne.symm hne]

theorem rposition_append_delimiter (htail : delimiter ∉ tail) (before : List α) :
    rposition delimiter (before ++ delimiter :: tail) = some before.length := by
  induction before with
  | nil => simp [rposition, rposition_of_not_mem htail]
  | cons symbol before ih => simp [rposition, ih]

-- A tail without a delimiter is exactly what the complete part leaves out.
theorem completeLen_frames_append (htail : delimiter ∉ tail) :
    completeLen delimiter (frames delimiter lines ++ tail) = (frames delimiter lines).length := by
  obtain rfl | ⟨lines, line, rfl⟩ := lines.eq_nil_or_concat
  · have hlast : tail.getLast? ≠ some delimiter :=
      fun h => htail (List.mem_of_getLast? h)
    simp [completeLen, hlast, rposition_of_not_mem htail]
  · rw [List.concat_eq_append]
    have hsplit : frames delimiter (lines ++ [line]) ++ tail =
        (frames delimiter lines ++ line) ++ delimiter :: tail := by
      simp [frames_concat]
    have hlen : (frames delimiter (lines ++ [line])).length =
        (frames delimiter lines ++ line).length + 1 := by
      simp [frames_concat, Nat.add_assoc]
    rw [hsplit, completeLen, rposition_append_delimiter htail, hlen]
    split_ifs with hlast
    · cases tail with
      | nil => simp [Nat.add_assoc]
      | cons symbol tail =>
          rw [List.getLast?_append_cons, List.getLast?_cons_cons] at hlast
          exact absurd (List.mem_of_getLast? hlast) htail
    · rfl

-- Every list of symbols is complete frames and a tail without a delimiter.
theorem exists_frames (delimiter : α) (symbols : List α) :
    ∃ lines tail, symbols = frames delimiter lines ++ tail ∧
      (∀ line ∈ lines, delimiter ∉ line) ∧ delimiter ∉ tail := by
  induction symbols with
  | nil => exact ⟨[], [], rfl, by simp, by simp⟩
  | cons symbol symbols ih =>
      obtain ⟨lines, tail, rfl, hlines, htail⟩ := ih
      by_cases hdelimiter : symbol = delimiter
      · subst hdelimiter
        exact ⟨[] :: lines, tail, by simp, by simpa using hlines, htail⟩
      · cases lines with
        | nil =>
            exact ⟨[], symbol :: tail, rfl, by simp,
              List.not_mem_cons_of_ne_of_not_mem (Ne.symm hdelimiter) htail⟩
        | cons line lines =>
            obtain ⟨hline, hlines⟩ := List.forall_mem_cons.mp hlines
            refine ⟨(symbol :: line) :: lines, tail, by simp, ?_, htail⟩
            exact List.forall_mem_cons.mpr
              ⟨List.not_mem_cons_of_ne_of_not_mem (Ne.symm hdelimiter) hline, hlines⟩

-- Splitting at the delimiters gives the lines back, and the tail last.
theorem splitOn_frames_append [BEq α] [LawfulBEq α] (hlines : ∀ line ∈ lines, delimiter ∉ line)
    (htail : delimiter ∉ tail) :
    (frames delimiter lines ++ tail).splitOn delimiter = lines ++ [tail] := by
  induction lines with
  | nil => exact List.splitOn_eq_singleton htail
  | cons line lines ih =>
      obtain ⟨hline, hlines⟩ := List.forall_mem_cons.mp hlines
      rw [frames_cons, List.append_assoc, List.cons_append,
        List.splitOn_append_cons_self_of_not_mem hline, ih hlines, List.cons_append]

theorem frames_inj [BEq α] [LawfulBEq α] {lines' : List (List α)}
    (hlines : ∀ line ∈ lines, delimiter ∉ line) (hlines' : ∀ line ∈ lines', delimiter ∉ line)
    (h : frames delimiter lines = frames delimiter lines') : lines = lines' := by
  have hsplit := splitOn_frames_append hlines List.not_mem_nil
  rw [h, splitOn_frames_append hlines' List.not_mem_nil] at hsplit
  exact (List.append_cancel_right hsplit).symm

-- One text of frames goes on from another where its lines do.
theorem frames_prefix_iff {lines' : List (List α)} (hlines : ∀ line ∈ lines, delimiter ∉ line)
    (hlines' : ∀ line ∈ lines', delimiter ∉ line) :
    frames delimiter lines <+: frames delimiter lines' ↔ lines <+: lines' := by
  constructor
  · rintro ⟨rest, hrest⟩
    obtain ⟨more, tail, rfl, hmore, htail⟩ := exists_frames delimiter rest
    have hall : ∀ line ∈ lines ++ more, delimiter ∉ line := fun line hline =>
      (List.mem_append.mp hline).elim (hlines line) (hmore line)
    have hsplit := splitOn_frames_append hlines' (List.not_mem_nil (a := delimiter))
    rw [List.append_nil, ← hrest, ← List.append_assoc, ← frames_append,
      splitOn_frames_append hall htail] at hsplit
    obtain ⟨hsame, -⟩ := List.append_inj' hsplit rfl
    exact ⟨more, hsame⟩
  · rintro ⟨more, rfl⟩
    exact ⟨frames delimiter more, (frames_append more).symm⟩

theorem count_frames (hlines : ∀ line ∈ lines, delimiter ∉ line) :
    (frames delimiter lines).count delimiter = lines.length := by
  induction lines with
  | nil => rfl
  | cons line lines ih =>
      obtain ⟨hline, hlines⟩ := List.forall_mem_cons.mp hlines
      simp [List.count_eq_zero_of_not_mem hline, ih hlines]

end M1nd.Library.Framing
