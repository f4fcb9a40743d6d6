import M1nd.Library.TextLines

namespace M1nd.Mcp

open M1nd.Library.TextLines
open M1nd.Library.Words

-- The tables of the standard library behind the ASCII characters.
class UnicodeTables where
  isAlphanumeric : Char → Bool

section Rewriting

variable [UnicodeTables]

def isAlphanumeric (c : Char) : Bool :=
  c.isAlphanum || (decide (128 ≤ c.toNat) && UnicodeTables.isAlphanumeric c)

def isIdentChar (c : Char) : Bool :=
  isAlphanumeric c || c = '_'

section Scanner

omit [UnicodeTables] in
def qualified (module symbol : Text) : Text :=
  module ++ ':' :: ':' :: symbol

def beforeOk (head : Text) : Bool :=
  !head.getLast?.any isIdentChar

def afterOk (after : Text) : Bool :=
  !after.head?.any isIdentChar

-- The loop goes on with the text behind each occurrence, which is shorter than the rest.
def replaceLoop (srcMod destMod symbol : Text) : Nat → Text → Text
  | 0, rest => rest
  | fuel + 1, rest =>
      match findText (qualified srcMod symbol) rest with
      | none => rest
      | some (head, after) =>
          head ++
            (if beforeOk head && afterOk after then qualified destMod symbol
              else qualified srcMod symbol) ++
            replaceLoop srcMod destMod symbol fuel after

def replaceQualified (line srcMod destMod symbol : Text) : Text :=
  replaceLoop srcMod destMod symbol line.length line

def countLoop (srcMod symbol : Text) : Nat → Text → Nat
  | 0, _ => 0
  | fuel + 1, rest =>
      match findText (qualified srcMod symbol) rest with
      | none => 0
      | some (head, after) =>
          (if beforeOk head && afterOk after then 1 else 0) + countLoop srcMod symbol fuel after

def countQualified (line srcMod symbol : Text) : Nat :=
  countLoop srcMod symbol line.length line

end Scanner

section Places

omit [UnicodeTables]

variable (srcMod destMod symbol : Text)

-- The tokens of a line, marked where a path from the module to the symbol begins. The leftmost
-- path takes its tokens.
def placed : List Text → List (Bool × Text)
  | a :: b :: c :: d :: rest =>
      if a = srcMod ∧ b = [':'] ∧ c = [':'] ∧ d = symbol then
        (true, a) :: (false, b) :: (false, c) :: (false, d) :: placed rest
      else (false, a) :: placed (b :: c :: d :: rest)
  | rest => rest.map fun token => (false, token)

def repoint (tokens : List Text) : List Text :=
  (placed srcMod symbol tokens).map fun (named, token) => if named then destMod else token

def places (tokens : List Text) : Nat :=
  (placed srcMod symbol tokens).countP Prod.fst

def PlaceAt (tokens : List Text) : Prop :=
  ∃ rest, tokens = srcMod :: [':'] :: [':'] :: symbol :: rest

variable {srcMod destMod symbol} {token : Text} {ts before after : List Text}

theorem placed_place (rest : List Text) :
    placed srcMod symbol (srcMod :: [':'] :: [':'] :: symbol :: rest) =
      (true, srcMod) :: (false, [':']) :: (false, [':']) :: (false, symbol) ::
        placed srcMod symbol rest := by
  rw [placed, if_pos ⟨rfl, rfl, rfl, rfl⟩]

theorem placed_cons (h : ¬ PlaceAt srcMod symbol (token :: ts)) :
    placed srcMod symbol (token :: ts) = (false, token) :: placed srcMod symbol ts := by
  rcases ts with _ | ⟨b, _ | ⟨c, _ | ⟨d, rest⟩⟩⟩
  · rfl
  · rfl
  · rfl
  · have hother : ¬ (token = srcMod ∧ b = [':'] ∧ c = [':'] ∧ d = symbol) := by
      rintro ⟨rfl, rfl, rfl, rfl⟩
      exact h ⟨rest, rfl⟩
    rw [placed, if_neg hother]

variable (srcMod symbol) in
-- Tokens at none of which a path begins.
def Unplaced (before after : List Text) : Prop :=
  ∀ front part, before = front ++ part → part ≠ [] → ¬ PlaceAt srcMod symbol (part ++ after)

theorem placed_append (h : Unplaced srcMod symbol before after) :
    placed srcMod symbol (before ++ after) =
      before.map (fun token => (false, token)) ++ placed srcMod symbol after := by
  induction before with
  | nil => rfl
  | cons token before ih =>
      have hrest := ih fun front part hbefore => h (token :: front) part (by rw [hbefore]; rfl)
      have hhere : ¬ PlaceAt srcMod symbol (token :: (before ++ after)) :=
        h [] _ rfl (List.cons_ne_nil _ _)
      rw [List.cons_append, placed_cons hhere, hrest]
      rfl

theorem repoint_append (h : Unplaced srcMod symbol before after) :
    repoint srcMod destMod symbol (before ++ after) =
      before ++ repoint srcMod destMod symbol after := by
  have hkept : (fun token : Text =>
      if (false, token).1 = true then destMod else (false, token).2) = id := by
    funext token
    rfl
  rw [repoint, placed_append h, List.map_append, List.map_map]
  exact congrArg (· ++ _) ((congrArg (List.map · before) hkept).trans (List.map_id _))

theorem places_append (h : Unplaced srcMod symbol before after) :
    places srcMod symbol (before ++ after) = places srcMod symbol after := by
  have hnone : (before.map fun token => (false, token)).countP Prod.fst = 0 := by
    rw [List.countP_eq_zero]
    intro marked hmarked
    obtain ⟨token, -, rfl⟩ := List.mem_map.mp hmarked
    exact Bool.false_ne_true
  rw [places, placed_append h, List.countP_append, hnone, Nat.zero_add, places]

theorem repoint_place (rest : List Text) :
    repoint srcMod destMod symbol (srcMod :: [':'] :: [':'] :: symbol :: rest) =
      destMod :: [':'] :: [':'] :: symbol :: repoint srcMod destMod symbol rest := by
  rw [repoint, placed_place]
  rfl

theorem places_place (rest : List Text) :
    places srcMod symbol (srcMod :: [':'] :: [':'] :: symbol :: rest) =
      1 + places srcMod symbol rest := by
  rw [places, placed_place, List.countP_cons_of_pos rfl,
    List.countP_cons_of_neg Bool.false_ne_true, List.countP_cons_of_neg Bool.false_ne_true,
    List.countP_cons_of_neg Bool.false_ne_true, Nat.add_comm, places]

theorem repoint_cons (h : ¬ PlaceAt srcMod symbol (token :: ts)) :
    repoint srcMod destMod symbol (token :: ts) = token :: repoint srcMod destMod symbol ts := by
  rw [repoint, placed_cons h]
  rfl

theorem unplaced_nil : Unplaced srcMod symbol [] after := by
  intro front part hsplit hpart
  exact absurd (List.append_eq_nil_iff.mp hsplit.symm).2 hpart

theorem unplaced_cons (hhere : ¬ PlaceAt srcMod symbol (token :: (before ++ after)))
    (hrest : Unplaced srcMod symbol before after) :
    Unplaced srcMod symbol (token :: before) after := by
  intro front part hsplit hpart
  cases front with
  | nil =>
      rw [List.nil_append] at hsplit
      rw [← hsplit]
      exact hhere
  | cons first front =>
      rw [List.cons_append, List.cons.injEq] at hsplit
      exact hrest front part hsplit.2 hpart

end Places

section Texts

variable {srcMod destMod symbol text head after prior : Text} {fresh : Bool}

theorem isIdentChar_colon : isIdentChar ':' = false := by
  have hplain : ':'.isAlphanum = false := by decide
  have hascii : decide (128 ≤ ':'.toNat) = false := by decide
  have hline : decide (':' = '_') = false := by decide
  rw [isIdentChar, isAlphanumeric, hplain, hascii, hline]
  rfl

theorem tokens_colon (text : Text) : tokens isIdentChar (':' :: text) = [':'] :: tokens isIdentChar text := by
  have hapart : Apart isIdentChar [':'] text := .inl isIdentChar_colon
  exact tokens_append hapart

theorem head_dropWhile (text : Text) : (text.dropWhile isIdentChar).head?.any isIdentChar = false := by
  have hhead := List.head?_dropWhile_not isIdentChar text
  cases h : (text.dropWhile isIdentChar).head? with
  | none => rfl
  | some c =>
      rw [h] at hhead
      exact hhead

theorem tokens_run_append (h : Run isIdentChar prior) (text : Text) :
    tokens isIdentChar (prior ++ text) =
      (prior ++ text.takeWhile isIdentChar) :: tokens isIdentChar (text.dropWhile isIdentChar) := by
  have hrun : Run isIdentChar (prior ++ text.takeWhile isIdentChar) := by
    refine ⟨List.append_ne_nil_of_left_ne_nil h.some _, fun c hc => ?_⟩
    exact (List.mem_append.mp hc).elim (h.whole c) List.mem_takeWhile_imp
  have hapart : Apart isIdentChar (prior ++ text.takeWhile isIdentChar)
      (text.dropWhile isIdentChar) := .inr (head_dropWhile text)
  calc tokens isIdentChar (prior ++ text)
      = tokens isIdentChar ((prior ++ text.takeWhile isIdentChar) ++
          text.dropWhile isIdentChar) := by
        rw [List.append_assoc, List.takeWhile_append_dropWhile]
    _ = _ := by
        rw [tokens_append hapart, hrun.tokens]
        rfl

theorem tokens_qualified (hmodule : Run isIdentChar srcMod) (hsymbol : Run isIdentChar symbol)
    (after : Text) : tokens isIdentChar (qualified srcMod symbol ++ after) =
      srcMod :: [':'] :: [':'] :: (symbol ++ after.takeWhile isIdentChar) ::
        tokens isIdentChar (after.dropWhile isIdentChar) := by
  have happend : qualified srcMod symbol ++ after = srcMod ++ (':' :: ':' :: (symbol ++ after)) := by
    rw [qualified, List.append_assoc]
    rfl
  rw [happend, tokens_run_append hmodule, List.takeWhile_cons_of_neg (by simp [isIdentChar_colon]),
    List.dropWhile_cons_of_neg (by simp [isIdentChar_colon]), List.append_nil, tokens_colon,
    tokens_colon, tokens_run_append hsymbol]

-- The tokens of a text whose first word goes on from a word before it that is longer than the
-- module's name, and of a text at the beginning of its line.
inductive Prior (srcMod : Text) : Bool → Text → Prop
  | first : Prior srcMod true []
  | word {prior : Text} (run : Run isIdentChar prior) (long : srcMod.length < prior.length) :
      Prior srcMod false prior

theorem Prior.exists_first (hprior : Prior srcMod fresh prior) {first : Text} {ts : List Text}
    (h : tokens isIdentChar (prior ++ text) = first :: ts) :
    ∃ rest, first = prior ++ rest ∧ (first = srcMod → prior = []) := by
  cases hprior with
  | first => exact ⟨first, rfl, fun _ => rfl⟩
  | word run long =>
      rw [tokens_run_append run, List.cons.injEq] at h
      refine ⟨_, h.1.symm, fun hsame => ?_⟩
      rw [← h.1] at hsame
      have hlength := congrArg List.length hsame
      rw [List.length_append] at hlength
      omega

-- A path among the tokens is one of the text behind the word that goes on.
theorem Prior.exists_text (hprior : Prior srcMod fresh prior) {front rest : List Text}
    (h : tokens isIdentChar (prior ++ text) = front ++ srcMod :: [':'] :: [':'] :: symbol :: rest) :
    ∃ before, front.flatten = prior ++ before ∧
      text = before ++ qualified srcMod symbol ++ rest.flatten := by
  have hflat : prior ++ text = front.flatten ++ (qualified srcMod symbol ++ rest.flatten) := by
    rw [← flatten_tokens isIdentChar (prior ++ text), h, List.flatten_append, qualified]
    simp
  have hfront : ∃ before, front.flatten = prior ++ before := by
    cases front with
    | nil =>
        obtain ⟨-, -, hnone⟩ := hprior.exists_first h
        exact ⟨[], by rw [hnone rfl]; rfl⟩
    | cons first front =>
        obtain ⟨q, rfl, -⟩ := hprior.exists_first h
        exact ⟨q ++ front.flatten, by rw [List.flatten_cons, List.append_assoc]⟩
  obtain ⟨before, hbefore⟩ := hfront
  refine ⟨before, hbefore, ?_⟩
  rw [hbefore, List.append_assoc] at hflat
  rw [List.append_cancel_left hflat, List.append_assoc]

-- The last word before the end of a text.
theorem exists_last_word (text : Text) : ∃ front last, text = front ++ last ∧
    front.getLast?.any isIdentChar = false ∧ ∀ c ∈ last, isIdentChar c = true := by
  induction text using List.reverseRecOn with
  | nil => exact ⟨[], [], rfl, rfl, by simp⟩
  | append_singleton text c ih =>
      by_cases hword : isIdentChar c = true
      · obtain ⟨front, last, rfl, hfront, hlast⟩ := ih
        refine ⟨front, last ++ [c], List.append_assoc _ _ _, hfront, fun d hd => ?_⟩
        obtain hmem | hmem := List.mem_append.mp hd
        · exact hlast d hmem
        · rw [List.mem_singleton.mp hmem]
          exact hword
      · refine ⟨text ++ [c], [], (List.append_nil _).symm, ?_, by simp⟩
        rw [List.getLast?_concat, Option.any_some]
        exact Bool.not_eq_true _ |>.mp hword

-- What the scanner sees at an occurrence, among the tokens of the line.
theorem Prior.exists_tokens (hprior : Prior srcMod fresh prior) (hmodule : Run isIdentChar srcMod)
    (hsymbol : Run isIdentChar symbol)
    (hfind : findText (qualified srcMod symbol) text = some (head, after)) :
    ∃ front last, prior ++ head = front ++ last ∧ front.getLast?.any isIdentChar = false ∧
      (∀ c ∈ last, isIdentChar c = true) ∧
      tokens isIdentChar (prior ++ text) = tokens isIdentChar front ++
        ((last ++ srcMod) :: [':'] :: [':'] :: (symbol ++ after.takeWhile isIdentChar) ::
          tokens isIdentChar (after.dropWhile isIdentChar)) ∧
      Unplaced srcMod symbol (tokens isIdentChar front)
        ((last ++ srcMod) :: [':'] :: [':'] :: (symbol ++ after.takeWhile isIdentChar) ::
          tokens isIdentChar (after.dropWhile isIdentChar)) := by
  obtain ⟨htext, hfirst⟩ := findText_eq_some hfind
  obtain ⟨front, last, hhead, hfront, hlast⟩ := exists_last_word (prior ++ head)
  have hword : Run isIdentChar (last ++ srcMod) := by
    refine ⟨List.append_ne_nil_of_right_ne_nil _ hmodule.some, fun c hc => ?_⟩
    exact (List.mem_append.mp hc).elim (hlast c) (hmodule.whole c)
  have hwhole : prior ++ text = front ++ (qualified (last ++ srcMod) symbol ++ after) := by
    rw [htext, ← List.append_assoc, ← List.append_assoc, hhead, qualified, qualified]
    simp only [List.append_assoc]
  have htokens : tokens isIdentChar (prior ++ text) = tokens isIdentChar front ++
        ((last ++ srcMod) :: [':'] :: [':'] :: (symbol ++ after.takeWhile isIdentChar) ::
          tokens isIdentChar (after.dropWhile isIdentChar)) := by
    rw [hwhole, tokens_append (.inl hfront), tokens_qualified hword hsymbol]
  refine ⟨front, last, hhead, hfront, hlast, htokens, ?_⟩
  rintro before part hsplit hpart ⟨rest, hplace⟩
  obtain ⟨skipped, hskipped, hbehind⟩ := hprior.exists_text
    (htokens.trans (by rw [hsplit, List.append_assoc, hplace]))
  -- the path would begin before the occurrence that was found first
  have hrest : head = skipped ++ (part.flatten ++ last) := by
    have hfrontText : front = before.flatten ++ part.flatten := by
      rw [← List.flatten_append, ← hsplit, flatten_tokens]
    rw [hfrontText, hskipped, List.append_assoc, List.append_assoc] at hhead
    exact List.append_cancel_left hhead
  have hsome : part.flatten ++ last ≠ [] := by
    obtain ⟨token, more, rfl⟩ := List.exists_cons_of_ne_nil hpart
    have hmem : token ∈ tokens isIdentChar front := by
      rw [hsplit]
      exact List.mem_append_right _ List.mem_cons_self
    have htoken := (tokenized_tokens isIdentChar front).ne_nil token hmem
    rw [List.flatten_cons, List.append_assoc]
    exact List.append_ne_nil_of_left_ne_nil htoken _
  refine hfirst skipped _ hrest hsome ⟨rest.flatten, ?_⟩
  rw [htext, hrest] at hbehind
  simp only [List.append_assoc] at hbehind ⊢
  exact (List.append_cancel_left hbehind).symm

end Texts

section Clear

-- A path at the beginning of a text.
def Whole (srcMod symbol text : Text) : Prop :=
  ∃ after, text = qualified srcMod symbol ++ after ∧ afterOk after = true

-- The texts in which the scanner takes no path for whole that touches the occurrence before it,
-- and passes no whole path that begins with the symbol of an occurrence that it leaves.
inductive Clear (srcMod symbol : Text) : Bool → Text → Prop
  | none {fresh : Bool} {text : Text} (find : findText (qualified srcMod symbol) text = none) :
      Clear srcMod symbol fresh text
  | taken {fresh : Bool} {text head after : Text}
      (find : findText (qualified srcMod symbol) text = some (head, after))
      (before : beforeOk head = true) (behind : afterOk after = true)
      (apart : head = [] → fresh = true) (rest : Clear srcMod symbol false after) :
      Clear srcMod symbol fresh text
  | left {fresh : Bool} {text head after : Text}
      (find : findText (qualified srcMod symbol) text = some (head, after))
      (part : ¬ (beforeOk head = true ∧ afterOk after = true))
      (alone : ¬ Whole srcMod symbol (symbol ++ after)) (rest : Clear srcMod symbol false after) :
      Clear srcMod symbol fresh text

variable {srcMod destMod symbol text head after prior : Text} {fresh : Bool}

theorem afterOk_eq_true : afterOk after = true ↔ after.head?.any isIdentChar = false := by
  rw [afterOk, Bool.not_eq_true']

theorem takeWhile_of_afterOk (h : afterOk after = true) :
    after.takeWhile isIdentChar = [] ∧ after.dropWhile isIdentChar = after := by
  have hhead := afterOk_eq_true.mp h
  cases after with
  | nil => exact ⟨rfl, rfl⟩
  | cons c after =>
      have hc : ¬ isIdentChar c = true := Bool.not_eq_true _ |>.mpr hhead
      exact ⟨List.takeWhile_cons_of_neg hc, List.dropWhile_cons_of_neg hc⟩

theorem afterOk_of_takeWhile (h : after.takeWhile isIdentChar = []) : afterOk after = true := by
  rw [afterOk_eq_true]
  cases after with
  | nil => rfl
  | cons c after =>
      by_cases hc : isIdentChar c = true
      · rw [List.takeWhile_cons_of_pos hc] at h
        exact absurd h (List.cons_ne_nil _ _)
      · exact Bool.not_eq_true _ |>.mp hc

-- A path that begins with a token of its own is whole.
theorem whole_of_placeAt (hsymbol : Run isIdentChar symbol)
    (h : PlaceAt srcMod symbol (tokens isIdentChar text)) : Whole srcMod symbol text := by
  obtain ⟨rest, htokens⟩ := h
  have htokenized := tokenized_tokens isIdentChar text
  rw [htokens] at htokenized
  refine ⟨rest.flatten, ?_, afterOk_eq_true.mpr ?_⟩
  · rw [← flatten_tokens isIdentChar text, htokens, qualified]
    simp
  · obtain _ | ⟨-, -, _ | ⟨-, -, _ | ⟨-, -, _ | ⟨-, hapart, -⟩⟩⟩⟩ := htokenized
    exact hapart.resolve_left (Bool.not_eq_false _ |>.mpr hsymbol.last)

-- What the scanner makes of the text behind an occurrence, where it forgets the word it is in.
theorem rest_spec (hmodule : Run isIdentChar srcMod) {fuel : Nat}
    (h : ∀ prior, Prior srcMod false prior →
      (repoint srcMod destMod symbol (tokens isIdentChar (prior ++ after))).flatten =
          prior ++ replaceLoop srcMod destMod symbol fuel after ∧
        places srcMod symbol (tokens isIdentChar (prior ++ after)) =
          countLoop srcMod symbol fuel after) :
    after.takeWhile isIdentChar ++ (repoint srcMod destMod symbol
        (tokens isIdentChar (after.dropWhile isIdentChar))).flatten =
          replaceLoop srcMod destMod symbol fuel after ∧
      places srcMod symbol (tokens isIdentChar (after.dropWhile isIdentChar)) =
        countLoop srcMod symbol fuel after := by
  have hrun := hmodule.append hmodule
  have hlength := List.length_pos_iff.mpr hmodule.some
  have hlong : srcMod.length < (srcMod ++ srcMod).length := by
    rw [List.length_append]
    omega
  obtain ⟨hreplace, hcount⟩ := h _ (.word hrun hlong)
  have hother : ¬ PlaceAt srcMod symbol ((srcMod ++ srcMod ++ after.takeWhile isIdentChar) ::
      tokens isIdentChar (after.dropWhile isIdentChar)) := by
    rintro ⟨rest, hplace⟩
    have hsame := congrArg List.length (List.cons.inj hplace).1
    rw [List.length_append, List.length_append] at hsame
    omega
  rw [tokens_run_append hrun, repoint_cons hother, List.flatten_cons, List.append_assoc] at hreplace
  rw [tokens_run_append hrun, ← List.singleton_append,
    places_append (unplaced_cons hother unplaced_nil)] at hcount
  exact ⟨List.append_cancel_left hreplace, hcount⟩

theorem last_eq_nil (hprior : Prior srcMod fresh prior) (before : beforeOk head = true)
    (apart : head = [] → fresh = true) {front last : Text} (hhead : prior ++ head = front ++ last)
    (hlast : ∀ c ∈ last, isIdentChar c = true) : last = [] := by
  by_contra hsome
  have hword : (prior ++ head).getLast?.any isIdentChar = true := by
    rw [hhead, List.getLast?_append_of_ne_nil _ hsome]
    exact Run.last ⟨hsome, hlast⟩
  by_cases hempty : head = []
  · obtain rfl := hempty
    obtain rfl := apart rfl
    cases hprior
    exact Bool.false_ne_true hword
  · rw [List.getLast?_append_of_ne_nil _ hempty] at hword
    rw [beforeOk, hword] at before
    exact Bool.false_ne_true before

theorem beforeOk_of_front {front : Text} (hhead : prior ++ head = front)
    (hfront : front.getLast?.any isIdentChar = false) : beforeOk head = true := by
  by_cases hempty : head = []
  · rw [hempty]
    rfl
  · rw [← hhead, List.getLast?_append_of_ne_nil _ hempty] at hfront
    rw [beforeOk, hfront]
    rfl

theorem Clear.spec (h : Clear srcMod symbol fresh text) (hmodule : Run isIdentChar srcMod)
    (hsymbol : Run isIdentChar symbol) (destMod : Text) :
    ∀ prior fuel, Prior srcMod fresh prior → text.length ≤ fuel →
      (repoint srcMod destMod symbol (tokens isIdentChar (prior ++ text))).flatten =
          prior ++ replaceLoop srcMod destMod symbol fuel text ∧
        places srcMod symbol (tokens isIdentChar (prior ++ text)) =
          countLoop srcMod symbol fuel text := by
  have hneedle : qualified srcMod symbol ≠ [] := List.append_ne_nil_of_left_ne_nil hmodule.some _
  have hneedleLength := List.length_pos_iff.mpr hneedle
  induction h with
  | @none fresh text find =>
      intro prior fuel hprior hfuel
      have hunplaced : Unplaced srcMod symbol (tokens isIdentChar (prior ++ text)) [] := by
        rintro front part hsplit hpart ⟨rest, hplace⟩
        rw [List.append_nil] at hplace
        obtain ⟨before, -, hbehind⟩ := hprior.exists_text (hsplit.trans (by rw [hplace]))
        exact not_infix_of_findText hneedle find ⟨before, rest.flatten, hbehind.symm⟩
      have hreplace : replaceLoop srcMod destMod symbol fuel text = text := by
        cases fuel with
        | zero => rfl
        | succ fuel => rw [replaceLoop, find]
      have hcount : countLoop srcMod symbol fuel text = 0 := by
        cases fuel with
        | zero => rfl
        | succ fuel => rw [countLoop, find]
      rw [hreplace, hcount, ← List.append_nil (tokens isIdentChar (prior ++ text)),
        repoint_append hunplaced, places_append hunplaced]
      refine ⟨?_, rfl⟩
      rw [List.flatten_append, flatten_tokens]
      exact List.append_nil _
  | @taken fresh text head after find before behind apart _ ih =>
      intro prior fuel hprior hfuel
      obtain ⟨front, last, hhead, -, hlast, htokens, hunplaced⟩ :=
        hprior.exists_tokens hmodule hsymbol find
      obtain rfl := last_eq_nil hprior before apart hhead hlast
      obtain ⟨hword, hmore⟩ := takeWhile_of_afterOk behind
      obtain ⟨htext, -⟩ := findText_eq_some find
      have hlength := congrArg List.length htext
      rw [List.length_append, List.length_append] at hlength
      obtain ⟨fuel, rfl⟩ : ∃ less, fuel = less + 1 := ⟨fuel - 1, by omega⟩
      obtain ⟨hreplace, hcount⟩ := rest_spec hmodule fun prior hprior =>
        ih prior fuel hprior (by omega)
      rw [hword, hmore] at hreplace htokens hunplaced
      rw [hmore] at hcount
      rw [htokens, repoint_append hunplaced, places_append hunplaced, List.nil_append,
        List.append_nil, repoint_place, places_place, replaceLoop, countLoop, find]
      simp only [before, behind, Bool.and_self, ↓reduceIte]
      refine ⟨?_, by rw [hcount]⟩
      rw [List.append_nil] at hhead
      rw [List.flatten_append, flatten_tokens, ← hhead, ← hreplace, qualified]
      simp only [List.flatten_cons, List.append_assoc, List.cons_append, List.nil_append]
  | @left fresh text head after find part alone _ ih =>
      intro prior fuel hprior hfuel
      obtain ⟨front, last, hhead, hfront, -, htokens, hunplaced⟩ :=
        hprior.exists_tokens hmodule hsymbol find
      obtain ⟨htext, -⟩ := findText_eq_some find
      have hlength := congrArg List.length htext
      rw [List.length_append, List.length_append] at hlength
      obtain ⟨fuel, rfl⟩ : ∃ less, fuel = less + 1 := ⟨fuel - 1, by omega⟩
      obtain ⟨hreplace, hcount⟩ := rest_spec hmodule fun prior hprior =>
        ih prior fuel hprior (by omega)
      have hpart : (beforeOk head && afterOk after) = false := by
        rw [Bool.and_eq_false_iff, ← Bool.not_eq_true, ← Bool.not_eq_true, ← not_and_or]
        exact part
      -- the tokens of the occurrence are no path, and none begins at its symbol
      have hoccurrence : Unplaced srcMod symbol
          [last ++ srcMod, [':'], [':'], symbol ++ after.takeWhile isIdentChar]
          (tokens isIdentChar (after.dropWhile isIdentChar)) := by
        have hcolon (rest : List Text) : ¬ PlaceAt srcMod symbol ([':'] :: rest) := by
          rintro ⟨more, hplace⟩
          have hword := hmodule.whole ':' (by rw [← (List.cons.inj hplace).1]; exact .head _)
          rw [isIdentChar_colon] at hword
          exact Bool.false_ne_true hword
        refine unplaced_cons ?_ (unplaced_cons (hcolon _) (unplaced_cons (hcolon _)
          (unplaced_cons ?_ unplaced_nil)))
        · rintro ⟨rest, hplace⟩
          simp only [List.cons_append, List.nil_append, List.cons.injEq, true_and] at hplace
          have hlastNil := List.append_left_eq_self.mp hplace.1
          have hwordNil := List.append_right_eq_self.mp hplace.2.1
          rw [hlastNil, List.append_nil] at hhead
          exact part ⟨beforeOk_of_front hhead hfront, afterOk_of_takeWhile hwordNil⟩
        · intro hplace
          rw [List.nil_append, ← tokens_run_append hsymbol] at hplace
          exact alone (whole_of_placeAt hsymbol hplace)
      rw [htokens, repoint_append hunplaced, places_append hunplaced, replaceLoop, countLoop, find]
      simp only [hpart, Bool.false_eq_true, ↓reduceIte, Nat.zero_add]
      have hsplit : (last ++ srcMod) :: [':'] :: [':'] :: (symbol ++ after.takeWhile isIdentChar) ::
          tokens isIdentChar (after.dropWhile isIdentChar) =
            [last ++ srcMod, [':'], [':'], symbol ++ after.takeWhile isIdentChar] ++
              tokens isIdentChar (after.dropWhile isIdentChar) := rfl
      rw [hsplit, repoint_append hoccurrence, places_append hoccurrence]
      refine ⟨?_, hcount⟩
      rw [List.flatten_append, List.flatten_append, flatten_tokens, ← hreplace, qualified,
        ← List.append_assoc prior, ← List.append_assoc prior, hhead]
      simp only [List.flatten_cons, List.flatten_nil, List.append_assoc, List.cons_append,
        List.nil_append]

end Clear

section Twice

variable {srcMod destMod symbol line : Text} {ts ts' : List Text} {token : Text}

omit [UnicodeTables]

theorem placed_induction (srcMod symbol : Text) {motive : List Text → Prop} (nil : motive [])
    (place : ∀ rest, motive rest → motive (srcMod :: [':'] :: [':'] :: symbol :: rest))
    (other : ∀ token rest, ¬ PlaceAt srcMod symbol (token :: rest) → motive rest →
      motive (token :: rest)) (ts : List Text) : motive ts := by
  induction hlength : ts.length using Nat.strong_induction_on generalizing ts with
  | _ n ih =>
      subst hlength
      by_cases hplace : PlaceAt srcMod symbol ts
      · obtain ⟨rest, rfl⟩ := hplace
        refine place rest (ih _ ?_ rest rfl)
        simp only [List.length_cons]
        omega
      · cases ts with
        | nil => exact nil
        | cons token rest => exact other token rest hplace (ih _ (Nat.lt_succ_self _) rest rfl)

theorem repoint_eq_cons (h : repoint srcMod destMod symbol ts = token :: ts') :
    (PlaceAt srcMod symbol ts ∧ token = destMod) ∨
      ∃ rest, ts = token :: rest ∧ repoint srcMod destMod symbol rest = ts' := by
  by_cases hplace : PlaceAt srcMod symbol ts
  · left
    refine ⟨hplace, ?_⟩
    obtain ⟨rest, rfl⟩ := hplace
    rw [repoint_place] at h
    exact (List.cons.inj h).1.symm
  · right
    cases ts with
    | nil => exact nomatch h
    | cons first rest =>
        rw [repoint_cons hplace] at h
        obtain ⟨rfl, hrest⟩ := List.cons.inj h
        exact ⟨rest, rfl, hrest⟩

-- The colons of a path stay where they are.
theorem repoint_eq_colons (hcolon : destMod ≠ [':'])
    (h : repoint srcMod destMod symbol ts = [':'] :: [':'] :: ts') :
    ∃ rest, ts = [':'] :: [':'] :: rest ∧ repoint srcMod destMod symbol rest = ts' := by
  obtain ⟨-, hdest⟩ | ⟨more, rfl, hmore⟩ := repoint_eq_cons h
  · exact absurd hdest.symm hcolon
  · obtain ⟨-, hdest⟩ | ⟨rest, rfl, hrest⟩ := repoint_eq_cons hmore
    · exact absurd hdest.symm hcolon
    · exact ⟨rest, rfl, hrest⟩

-- What a second pass could find is a path whose symbol the first pass wrote, or one that begins
-- with the symbol of a path that the first pass took.
theorem repoint_repoint (hother : destMod ≠ srcMod) (hsource : srcMod ≠ [':'])
    (hdest : destMod ≠ [':'])
    (hchain : destMod = symbol ∨ srcMod = symbol →
      ¬ [srcMod, [':'], [':'], srcMod, [':'], [':'], symbol] <:+: ts) :
    repoint srcMod destMod symbol (repoint srcMod destMod symbol ts) =
      repoint srcMod destMod symbol ts := by
  induction ts using placed_induction srcMod symbol with
  | nil => rfl
  | place rest ih =>
      have hrest := ih fun hsame hwithin => hchain hsame
        (hwithin.trans ⟨[srcMod, [':'], [':'], symbol], [], List.append_nil _⟩)
      have hnamed (more : List Text) : ¬ PlaceAt srcMod symbol (destMod :: more) := by
        rintro ⟨tail, hplace⟩
        exact hother (List.cons.inj hplace).1
      have hcolons (more : List Text) : ¬ PlaceAt srcMod symbol ([':'] :: more) := by
        rintro ⟨tail, hplace⟩
        exact hsource (List.cons.inj hplace).1.symm
      have hnext : ¬ PlaceAt srcMod symbol (symbol :: repoint srcMod destMod symbol rest) := by
        rintro ⟨more, hmore⟩
        obtain ⟨hsame, hcolon⟩ := List.cons.inj hmore
        obtain ⟨last, rfl, hlast⟩ := repoint_eq_colons hdest hcolon
        obtain ⟨-, hsymbol⟩ | ⟨tail, rfl, -⟩ := repoint_eq_cons hlast
        · exact hother (hsymbol.symm.trans hsame)
        · refine hchain (.inr hsame.symm) ⟨[], tail, ?_⟩
          rw [hsame]
          rfl
      rw [repoint_place, repoint_cons (hnamed _), repoint_cons (hcolons _),
        repoint_cons (hcolons _), repoint_cons hnext, hrest]
  | other token rest hplace ih =>
      have hrest := ih fun hsame hwithin => hchain hsame (hwithin.trans (List.suffix_cons _ _).isInfix)
      have hnext : ¬ PlaceAt srcMod symbol (token :: repoint srcMod destMod symbol rest) := by
        rintro ⟨more, hmore⟩
        obtain ⟨rfl, hcolons⟩ := List.cons.inj hmore
        obtain ⟨last, rfl, hlast⟩ := repoint_eq_colons hdest hcolons
        obtain ⟨⟨tail, rfl⟩, hsymbol⟩ | ⟨tail, rfl, -⟩ := repoint_eq_cons hlast
        · exact hchain (.inl hsymbol.symm) ⟨[], tail, rfl⟩
        · exact hplace ⟨tail, rfl⟩
      rw [repoint_cons hplace, repoint_cons hnext, hrest]

end Twice

section Lines

variable {srcMod destMod symbol line : Text} {ts : List Text}

theorem run_ne_colon {name : Text} (h : Run isIdentChar name) : name ≠ [':'] := by
  rintro rfl
  have hword := h.whole ':' (.head _)
  rw [isIdentChar_colon] at hword
  exact Bool.false_ne_true hword

-- A module's name in the place of another leaves the other tokens as they are.
theorem tokens_repoint (hmodule : Run isIdentChar srcMod) (hdest : Run isIdentChar destMod)
    (text : Text) :
    tokens isIdentChar (repoint srcMod destMod symbol (tokens isIdentChar text)).flatten =
      repoint srcMod destMod symbol (tokens isIdentChar text) := by
  have halike (ts : List Text) :
      List.Forall₂ (Alike isIdentChar) ts (repoint srcMod destMod symbol ts) := by
    induction ts using placed_induction srcMod symbol with
    | nil => exact .nil
    | place rest ih =>
        rw [repoint_place]
        exact .cons (.inr ⟨hmodule, hdest⟩) (.cons (.inl rfl) (.cons (.inl rfl)
          (.cons (.inl rfl) ih)))
    | other token rest hplace ih =>
        rw [repoint_cons hplace]
        exact .cons (.inl rfl) ih
  exact ((tokenized_tokens isIdentChar text).alike (halike _)).tokens_flatten

theorem replaceQualified_eq (hmodule : Run isIdentChar srcMod) (hsymbol : Run isIdentChar symbol)
    (hclear : Clear srcMod symbol true line) (destMod : Text) :
    replaceQualified line srcMod destMod symbol =
      (repoint srcMod destMod symbol (tokens isIdentChar line)).flatten :=
  (hclear.spec hmodule hsymbol destMod [] line.length .first (Nat.le_refl _)).1.symm

theorem qualified_paths_rewritten (hmodule : Run isIdentChar srcMod)
    (hsymbol : Run isIdentChar symbol) (hclear : Clear srcMod symbol true line) :
    (∀ destMod, replaceQualified line srcMod destMod symbol =
      (repoint srcMod destMod symbol (tokens isIdentChar line)).flatten) ∧
    countQualified line srcMod symbol = places srcMod symbol (tokens isIdentChar line) ∧
    ∀ destMod, Run isIdentChar destMod → destMod ≠ srcMod →
      (destMod = symbol ∨ srcMod = symbol →
        ¬ [srcMod, [':'], [':'], srcMod, [':'], [':'], symbol] <:+: tokens isIdentChar line) →
      Clear srcMod symbol true (replaceQualified line srcMod destMod symbol) →
      replaceQualified (replaceQualified line srcMod destMod symbol) srcMod destMod symbol =
        replaceQualified line srcMod destMod symbol := by
  have hspec := hclear.spec hmodule hsymbol srcMod [] line.length .first (Nat.le_refl _)
  refine ⟨replaceQualified_eq hmodule hsymbol hclear, hspec.2.symm, ?_⟩
  intro destMod hdest hother hchain hagain
  rw [replaceQualified_eq hmodule hsymbol hagain, replaceQualified_eq hmodule hsymbol hclear,
    tokens_repoint hmodule hdest, repoint_repoint hother (run_ne_colon hmodule)
      (run_ne_colon hdest) hchain]

end Lines

end Rewriting

section Examples

instance asciiTables : UnicodeTables where
  isAlphanumeric _ := false

def callLine : Text := "crate::alpha::f(alpha::f);".toList

def movedLine : Text := "crate::beta::f(beta::f);".toList

theorem callLine_clear : Clear "alpha".toList "f".toList true callLine := by
  have hlast : Clear "alpha".toList "f".toList false ");".toList :=
    .none (by decide +kernel)
  have hsecond : Clear "alpha".toList "f".toList false "(alpha::f);".toList :=
    @Clear.taken _ _ _ _ _ "(".toList ");".toList (by decide +kernel) (by decide) (by decide)
      (by decide) hlast
  exact @Clear.taken _ _ _ _ _ "crate::".toList "(alpha::f);".toList (by decide +kernel)
    (by decide) (by decide) (by decide) hsecond

theorem callLine_rewritten :
    replaceQualified callLine "alpha".toList "beta".toList "f".toList = movedLine ∧
      countQualified callLine "alpha".toList "f".toList = 2 ∧
      replaceQualified movedLine "alpha".toList "beta".toList "f".toList = movedLine := by
  obtain ⟨hreplace, hcount, htwice⟩ := qualified_paths_rewritten
    (⟨by decide, List.all_eq_true.mp (by decide)⟩ : Run isIdentChar "alpha".toList)
    ⟨by decide, List.all_eq_true.mp (by decide)⟩ callLine_clear
  have hmoved : replaceQualified callLine "alpha".toList "beta".toList "f".toList = movedLine :=
    (hreplace _).trans (by decide +kernel)
  refine ⟨hmoved, hcount.trans (by decide +kernel), ?_⟩
  have hdone := htwice "beta".toList ⟨by decide, List.all_eq_true.mp (by decide)⟩ (by decide)
    (by decide) (by rw [hmoved]; exact .none (by decide +kernel))
  rwa [hmoved] at hdone

-- The second pass takes the symbol that the first one wrote for the module it looks for.
theorem repointed_twice :
    replaceQualified "a::a::f".toList "a".toList "f".toList "f".toList = "a::f::f".toList ∧
      replaceQualified "a::f::f".toList "a".toList "f".toList "f".toList = "f::f::f".toList ∧
      "f".toList ≠ "a".toList ∧ "f::f::f".toList ≠ "a::f::f".toList := by
  decide +kernel

end Examples

end M1nd.Mcp
