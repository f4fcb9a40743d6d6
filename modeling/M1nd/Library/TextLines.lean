import M1nd.Library.Framing
import Mathlib.Data.List.DropRight
import Mathlib.Data.List.Forall2
import Mathlib.Data.List.Infix

namespace M1nd.Library.TextLines

open M1nd.Library.Framing

abbrev Text := List Char

section Lines

-- A line keeps neither its line feed nor one carriage return before it.
def stripLineEnd (line : Text) : Text :=
  if line.getLast? = some '\n' then
    if line.dropLast.getLast? = some '\r' then line.dropLast.dropLast else line.dropLast
  else line

def lines (text : Text) : List Text :=
  (splitInclusive '\n' text).map stripLineEnd

-- The last line is complete.
def Closed (text : Text) : Prop :=
  text = [] ∨ text.getLast? = some '\n'

variable {text line more : Text}

theorem Closed.exists_frames (h : Closed text) :
    ∃ lines, text = frames '\n' lines ∧ ∀ line ∈ lines, '\n' ∉ line := by
  obtain ⟨lines, tail, rfl, hlines, htail⟩ := Framing.exists_frames '\n' text
  cases tail with
  | nil => exact ⟨lines, List.append_nil _, hlines⟩
  | cons symbol tail =>
      exfalso
      obtain hnil | hlast := h
      · exact List.cons_ne_nil _ _ (List.append_eq_nil_iff.mp hnil).2
      · rw [List.getLast?_append_cons] at hlast
        exact htail (List.mem_of_getLast? hlast)

theorem splitInclusive_frames_append {lines : List Text} (hlines : ∀ line ∈ lines, '\n' ∉ line) :
    splitInclusive '\n' (frames '\n' lines ++ more) =
      splitInclusive '\n' (frames '\n' lines) ++ splitInclusive '\n' more := by
  induction lines with
  | nil => rfl
  | cons line lines ih =>
      obtain ⟨hline, hlines⟩ := List.forall_mem_cons.mp hlines
      rw [frames_cons, List.append_assoc, List.cons_append, splitInclusive_append_delimiter hline,
        splitInclusive_append_delimiter hline, ih hlines, List.cons_append]

theorem lines_append (h : Closed text) : lines (text ++ more) = lines text ++ lines more := by
  obtain ⟨closed, rfl, hclosed⟩ := h.exists_frames
  rw [lines, splitInclusive_frames_append hclosed, List.map_append]
  rfl

theorem splitInclusive_tail {tail : Text} (htail : '\n' ∉ tail) :
    splitInclusive '\n' tail = if tail = [] then [] else [tail] := by
  induction tail with
  | nil => rfl
  | cons symbol tail ih =>
      obtain ⟨hne, htail⟩ := List.ne_and_not_mem_of_not_mem_cons htail
      rw [splitInclusive, if_neg (Ne.symm hne), ih htail, if_neg (List.cons_ne_nil _ _)]
      by_cases hnil : tail = []
      · rw [if_pos hnil, hnil]
      · rw [if_neg hnil]

theorem stripLineEnd_subset : stripLineEnd (line ++ ['\n']) ⊆ line := by
  unfold stripLineEnd
  rw [List.getLast?_concat, if_pos rfl, List.dropLast_concat]
  split
  · exact List.dropLast_subset line
  · exact List.Subset.refl line

-- No line holds a line feed.
theorem not_mem_of_mem_lines (h : line ∈ lines text) : '\n' ∉ line := by
  obtain ⟨closed, tail, rfl, hclosed, htail⟩ := Framing.exists_frames '\n' text
  rw [lines, splitInclusive_frames_append hclosed, splitInclusive_frames hclosed,
    splitInclusive_tail htail, List.map_append, List.map_map, List.mem_append] at h
  obtain h | h := h
  · obtain ⟨line, hline, rfl⟩ := List.mem_map.mp h
    exact fun hmem => hclosed line hline (stripLineEnd_subset hmem)
  · by_cases hnil : tail = []
    · rw [if_pos hnil] at h
      exact absurd h List.not_mem_nil
    · rw [if_neg hnil, List.map_singleton, List.mem_singleton] at h
      have hlast : tail.getLast? ≠ some '\n' := fun hlast => htail (List.mem_of_getLast? hlast)
      rw [h, stripLineEnd, if_neg hlast]
      exact htail

-- A line that is written with a line feed is read back.
theorem lines_line (hline : '\n' ∉ line) (hlast : line.getLast? ≠ some '\r') :
    lines (line ++ ['\n']) = [line] := by
  rw [lines, splitInclusive_append_delimiter hline, splitInclusive, List.map_singleton,
    stripLineEnd, List.getLast?_concat, if_pos rfl, List.dropLast_concat, if_neg hlast]

end Lines

section Trim

variable (blank : Char → Bool) (text : Text)

def trim : Text :=
  (text.dropWhile blank).rdropWhile blank

theorem trim_subset : trim blank text ⊆ text :=
  List.Subset.trans (List.rdropWhile_prefix blank _).subset (List.dropWhile_suffix blank).subset

-- What is left neither begins nor ends with a blank.
theorem trim_trim : trim blank (trim blank text) = trim blank text := by
  have hdrop : (trim blank text).dropWhile blank = trim blank text := by
    rw [List.dropWhile_eq_self_iff]
    intro hlength hblank
    have hprefix : trim blank text <+: text.dropWhile blank := List.rdropWhile_prefix blank _
    have hpos : 0 < (text.dropWhile blank).length := hlength.trans_le hprefix.length_le
    refine List.dropWhile_get_zero_not blank text hpos ?_
    rw [List.get_eq_getElem, ← hprefix.getElem hlength]
    exact hblank
  rw [trim, hdrop, trim, List.rdropWhile_idempotent]

theorem getLast?_trim {symbol : Char} (h : (trim blank text).getLast? = some symbol) :
    blank symbol = false := by
  have hne : trim blank text ≠ [] := by
    intro hnil
    rw [hnil] at h
    cases h
  have hlast := List.rdropWhile_last_not blank (text.dropWhile blank) hne
  rw [List.getLast?_eq_getLast_of_ne_nil hne, Option.some_inj] at h
  rw [← h]
  exact Bool.eq_false_iff.mpr hlast

end Trim

end M1nd.Library.TextLines

namespace M1nd.Library.Words

variable {α : Type}

section Find

variable [DecidableEq α] {needle text head after : List α}

-- The text before and behind the first occurrence.
def findText (needle : List α) : List α → Option (List α × List α)
  | [] => if needle = [] then some ([], []) else none
  | c :: rest =>
      if needle <+: c :: rest then some ([], (c :: rest).drop needle.length)
      else (findText needle rest).map fun (head, after) => (c :: head, after)

theorem findText_eq_some (h : findText needle text = some (head, after)) :
    text = head ++ needle ++ after ∧
      ∀ before part, head = before ++ part → part ≠ [] → ¬ needle <+: part ++ needle ++ after := by
  induction text generalizing head with
  | nil =>
      rw [findText] at h
      by_cases hneedle : needle = []
      · rw [if_pos hneedle, Option.some.injEq, Prod.mk.injEq] at h
        obtain ⟨rfl, rfl⟩ := h
        refine ⟨by rw [hneedle]; rfl, fun before part hhead hpart => ?_⟩
        exact absurd (List.append_eq_nil_iff.mp hhead.symm).2 hpart
      · rw [if_neg hneedle] at h
        exact nomatch h
  | cons c rest ih =>
      rw [findText] at h
      by_cases hhere : needle <+: c :: rest
      · rw [if_pos hhere, Option.some.injEq, Prod.mk.injEq] at h
        obtain ⟨rfl, rfl⟩ := h
        obtain ⟨behind, hbehind⟩ := hhere
        refine ⟨?_, fun before part hhead hpart => ?_⟩
        · rw [← hbehind, List.nil_append, List.drop_left]
        · exact absurd (List.append_eq_nil_iff.mp hhead.symm).2 hpart
      · rw [if_neg hhere] at h
        obtain ⟨⟨head', after'⟩, hrest, hpair⟩ := Option.map_eq_some_iff.mp h
        obtain ⟨rfl, rfl⟩ := Prod.mk.inj hpair
        obtain ⟨htext, hfirst⟩ := ih hrest
        refine ⟨by rw [htext]; rfl, fun before part hhead hpart => ?_⟩
        cases before with
        | nil =>
            rw [List.nil_append] at hhead
            rw [← hhead]
            rw [htext] at hhere
            exact hhere
        | cons d before =>
            rw [List.cons_append, List.cons.injEq] at hhead
            exact hfirst before part hhead.2 hpart

theorem not_infix_of_findText (hneedle : needle ≠ []) (h : findText needle text = none) :
    ¬ needle <:+: text := by
  induction text with
  | nil =>
      intro hinfix
      exact hneedle (List.infix_nil.mp hinfix)
  | cons c rest ih =>
      rw [findText] at h
      by_cases hhere : needle <+: c :: rest
      · rw [if_pos hhere] at h
        exact nomatch h
      · rw [if_neg hhere, Option.map_eq_none_iff] at h
        rw [List.infix_cons_iff]
        exact not_or.mpr ⟨hhere, ih h⟩

end Find

section Tokens

variable (word : α → Bool)

-- A character before the tokens of the text behind it.
def glue (c : α) : List (List α) → List (List α)
  | [] => [[c]]
  | token :: more =>
      if word c = true ∧ token.head?.any word = true then (c :: token) :: more
      else [c] :: token :: more

-- A run of word characters is one token, every other character is one of its own.
def tokens : List α → List (List α)
  | [] => []
  | c :: rest => glue word c (tokens rest)

variable {word} {run text before after : List α} {c : α}

theorem flatten_glue (c : α) (more : List (List α)) :
    (glue word c more).flatten = c :: more.flatten := by
  cases more with
  | nil => rfl
  | cons token more =>
      rw [glue]
      by_cases hjoin : word c = true ∧ token.head?.any word = true
      · rw [if_pos hjoin]
        rfl
      · rw [if_neg hjoin]
        rfl

theorem flatten_tokens (word : α → Bool) (text : List α) : (tokens word text).flatten = text := by
  induction text with
  | nil => rfl
  | cons c rest ih => rw [tokens, flatten_glue, ih]

theorem head_glue (word : α → Bool) (c : α) (more : List (List α)) :
    ∃ token rest, glue word c more = (c :: token) :: rest := by
  cases more with
  | nil => exact ⟨[], [], rfl⟩
  | cons token more =>
      rw [glue]
      by_cases hjoin : word c = true ∧ token.head?.any word = true
      · exact ⟨token, more, if_pos hjoin⟩
      · exact ⟨[], token :: more, if_neg hjoin⟩

theorem glue_append {token : List α} (c : α) (more others : List (List α)) :
    glue word c (token :: more ++ others) = glue word c (token :: more) ++ others := by
  rw [List.cons_append, glue, glue]
  by_cases hjoin : word c = true ∧ token.head?.any word = true
  · rw [if_pos hjoin, if_pos hjoin, List.cons_append]
  · rw [if_neg hjoin, if_neg hjoin, List.cons_append, List.cons_append]

-- Two texts without a common run have their own tokens.
def Apart (word : α → Bool) (before after : List α) : Prop :=
  before.getLast?.any word = false ∨ after.head?.any word = false

theorem tokens_append (h : Apart word before after) :
    tokens word (before ++ after) = tokens word before ++ tokens word after := by
  induction before with
  | nil => rfl
  | cons c rest ih =>
      rw [List.cons_append, tokens, tokens]
      cases rest with
      | nil =>
          cases after with
          | nil => rfl
          | cons d after =>
              obtain ⟨token, more, hglue⟩ := head_glue word d (tokens word after)
              have htokens : tokens word (d :: after) = (d :: token) :: more := hglue
              have hapart : ¬ (word c = true ∧ (d :: token).head?.any word = true) := by
                rintro ⟨hc, hd⟩
                obtain hlast | hfirst := h
                · exact absurd hc (Bool.not_eq_true _ |>.mpr hlast)
                · exact absurd hd (Bool.not_eq_true _ |>.mpr hfirst)
              rw [List.nil_append, htokens, glue, if_neg hapart]
              rfl
      | cons d rest =>
          have hrest : Apart word (d :: rest) after := by
            rwa [Apart, List.getLast?_cons_cons] at h
          obtain ⟨token, more, htokens⟩ := head_glue word d (tokens word rest)
          rw [ih hrest, tokens, htokens, glue_append]

-- A word that is not empty.
structure Run (word : α → Bool) (run : List α) : Prop where
  some : run ≠ []
  whole : ∀ c ∈ run, word c = true

theorem Run.head (h : Run word run) : run.head?.any word = true := by
  obtain ⟨c, rest, rfl⟩ := List.exists_cons_of_ne_nil h.some
  exact h.whole c List.mem_cons_self

theorem Run.last (h : Run word run) : run.getLast?.any word = true := by
  rw [List.getLast?_eq_some_getLast h.some]
  exact h.whole _ (List.getLast_mem h.some)

theorem Run.append {other : List α} (h : Run word run) (hother : Run word other) :
    Run word (run ++ other) where
  some := List.append_ne_nil_of_left_ne_nil h.some other
  whole c hc := (List.mem_append.mp hc).elim (h.whole c) (hother.whole c)

theorem Run.tokens (h : Run word run) : tokens word run = [run] := by
  obtain ⟨hsome, hwhole⟩ := h
  induction run with
  | nil => exact absurd rfl hsome
  | cons c rest ih =>
      cases rest with
      | nil => rfl
      | cons d rest =>
          have hrest := ih (List.cons_ne_nil _ _) fun e he => hwhole e (List.mem_cons_of_mem _ he)
          have hjoin : word c = true ∧ (d :: rest).head?.any word = true :=
            ⟨hwhole c List.mem_cons_self, hwhole d (List.mem_cons_of_mem _ List.mem_cons_self)⟩
          rw [Words.tokens, hrest, glue, if_pos hjoin]

-- The lists that a text is cut into.
inductive Tokenized (word : α → Bool) : List (List α) → Prop
  | nil : Tokenized word []
  | cons {token : List α} {more : List (List α)} (single : tokens word token = [token])
      (apart : Apart word token more.flatten) (rest : Tokenized word more) :
      Tokenized word (token :: more)

variable {ts ts' : List (List α)}

theorem Tokenized.tokens_flatten (h : Tokenized word ts) : tokens word ts.flatten = ts := by
  induction h with
  | nil => rfl
  | cons single apart _ ih =>
      rw [List.flatten_cons, tokens_append apart, single, ih]
      rfl

theorem Tokenized.glue (h : Tokenized word ts) (c : α) : Tokenized word (glue word c ts) := by
  cases h with
  | nil => exact .cons rfl (.inr rfl) .nil
  | @cons token more single apart rest =>
      have hsome : token ≠ [] := by
        rintro rfl
        exact nomatch single
      obtain ⟨d, token, rfl⟩ := List.exists_cons_of_ne_nil hsome
      rw [Words.glue]
      by_cases hjoin : word c = true ∧ (d :: token).head?.any word = true
      · rw [if_pos hjoin]
        refine .cons ?_ ?_ rest
        · rw [tokens, single, Words.glue, if_pos hjoin]
        · rwa [Apart, List.getLast?_cons_cons]
      · rw [if_neg hjoin]
        refine .cons rfl ?_ (.cons single apart rest)
        rw [not_and_or, Bool.not_eq_true, Bool.not_eq_true] at hjoin
        exact hjoin

theorem tokenized_tokens (word : α → Bool) (text : List α) : Tokenized word (tokens word text) := by
  induction text with
  | nil => exact .nil
  | cons c rest ih => exact ih.glue c

theorem Tokenized.ne_nil (h : Tokenized word ts) : ∀ token ∈ ts, token ≠ [] := by
  induction h with
  | nil => exact fun _ hmem => absurd hmem List.not_mem_nil
  | cons single _ _ ih =>
      intro other hmem
      obtain rfl | hmore := List.mem_cons.mp hmem
      · rintro rfl
        exact nomatch single
      · exact ih other hmore

-- Runs in the place of runs.
def Alike (word : α → Bool) (token other : List α) : Prop :=
  token = other ∨ Run word token ∧ Run word other

theorem head_flatten_alike (h : List.Forall₂ (Alike word) ts ts') :
    ts.flatten.head?.any word = ts'.flatten.head?.any word := by
  induction h with
  | nil => rfl
  | @cons token other more others hhead _ ih =>
      obtain rfl | ⟨htoken, hother⟩ := hhead
      · cases token with
        | nil => exact ih
        | cons c token => rfl
      · rw [List.flatten_cons, List.flatten_cons, List.head?_append_of_ne_nil _ htoken.some,
          List.head?_append_of_ne_nil _ hother.some, htoken.head, hother.head]

theorem Tokenized.alike (h : Tokenized word ts) (halike : List.Forall₂ (Alike word) ts ts') :
    Tokenized word ts' := by
  induction h generalizing ts' with
  | nil =>
      cases halike
      exact .nil
  | @cons token more single apart _ ih =>
      cases halike with
      | cons hhead hrest =>
          have hnext := head_flatten_alike hrest
          obtain rfl | ⟨htoken, hother⟩ := hhead
          · exact .cons single (by rwa [Apart, ← hnext]) (ih hrest)
          · refine .cons hother.tokens (.inr ?_) (ih hrest)
            rw [← hnext]
            exact apart.resolve_left (Bool.not_eq_false _ |>.mpr htoken.last)

end Tokens

end M1nd.Library.Words
