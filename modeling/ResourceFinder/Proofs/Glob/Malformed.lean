import Mathlib.Data.List.Basic
import Mathlib.Data.Nat.Find
import ResourceFinder.Glob.Matcher

/-
What makes a text no pattern, and what is told of it.

Reading goes over the tokens of a text from the left: a backslash takes the character after it along,
and two stars are one token.  What is wrong shows at a token or at the end, by the tokens before.
The first place where something is wrong is the one that is told, and its position counts characters
of the text, whatever expressions the tokens before stand for.
-/

namespace ResourceFinder
namespace Glob

/-- What reading takes at a time: a backslash with the character after it, two stars, or one
character. -/
inductive Token where
  | escaped (c : CodePoint)
  | stars
  | single (c : CodePoint)

namespace Token

def text : Token → Text
  | escaped c => [.char '\\', c]
  | stars => [.char '*', .char '*']
  | single c => [c]

def backslash : Token := single (.char '\\')

def openingBrace : Token := single (.char '\x7b')

def closingBrace : Token := single (.char '\x7d')

end Token

/-- The tokens of a text.  A backslash at the end, which nothing comes after, is one by itself. -/
def tokens : Text → List Token
  | [] => []
  | [c] => [.single c]
  | .char '\\' :: c :: t => .escaped c :: tokens t
  | .char '*' :: .char '*' :: t => .stars :: tokens t
  | c :: t => .single c :: tokens t

/-- Whether a group is open after some tokens: a brace has opened one, and none has closed it. -/
def IsOpen (before : List Token) : Prop :=
  ∃ early late, before = early ++ .openingBrace :: late ∧ .closingBrace ∉ late

/-- What is wrong with a text after a number of its tokens: what is told of it, and the position. -/
inductive Meets (pattern : Text) : Nat → Text → Nat → Prop where
  | noCharacterToEscape {before : List Token} (h : tokens pattern = before ++ [.backslash]) :
      Meets pattern before.length "No character to escape" (pattern.length - 1)
  | nestedGroup {before after : List Token}
      (h : tokens pattern = before ++ .openingBrace :: after) (hopen : IsOpen before) :
      Meets pattern before.length "Cannot nest groups" (before.flatMap Token.text).length
  | missingClosingBrace (hopen : IsOpen (tokens pattern)) :
      Meets pattern (tokens pattern).length "Missing closing brace" (pattern.length - 1)

/-! ## Tokens -/

theorem tokens_single {c : CodePoint} {t : Text} (hback : t ≠ [] → c ≠ .char '\\')
    (hstar : c = .char '*' → t.head? ≠ some (.char '*')) :
    tokens (c :: t) = .single c :: tokens t := by
  cases t with
  | nil => rfl
  | cons d t =>
    refine tokens.eq_5 c (d :: t) (fun h => by cases h) (fun _ _ hc _ => hback (by simp) hc) ?_
    rintro t' rfl heq
    exact hstar rfl (by rw [heq]; rfl)

theorem flatMap_text_tokens (t : Text) : (tokens t).flatMap Token.text = t := by
  induction t using tokens.induct with
  | case1 => rfl
  | case2 c => rfl
  | case3 c t ih => rw [tokens, List.flatMap_cons, ih]; rfl
  | case4 t ih => rw [tokens, List.flatMap_cons, ih]; rfl
  | case5 c t hne hback hstar ih => rw [tokens.eq_5 c t hne hback hstar, List.flatMap_cons, ih]; rfl

theorem not_isOpen_nil : ¬IsOpen [] := by
  rintro ⟨early, late, h, -⟩
  simp at h

theorem isOpen_concat {before : List Token} {token : Token} :
    IsOpen (before ++ [token]) ↔
      token = .openingBrace ∨ token ≠ .closingBrace ∧ IsOpen before := by
  constructor
  · rintro ⟨early, late, h, hlate⟩
    obtain rfl | ⟨late, last, rfl⟩ := List.eq_nil_or_concat' late
    · obtain ⟨-, htoken⟩ := List.append_inj' h rfl
      exact .inl (List.singleton_inj.1 htoken)
    · rw [← List.cons_append, ← List.append_assoc] at h
      obtain ⟨rfl, htoken⟩ := List.append_inj' h rfl
      obtain rfl := List.singleton_inj.1 htoken
      rw [List.mem_append, not_or, List.mem_singleton] at hlate
      exact .inr ⟨fun heq => hlate.2 heq.symm, early, late, rfl, hlate.1⟩
  · rintro (rfl | ⟨hne, early, late, rfl, hlate⟩)
    · exact ⟨before, [], rfl, by simp⟩
    · refine ⟨early, late ++ [token], by simp, ?_⟩
      simpa [hlate] using hne.symm

/-! ## One place -/

section

variable {pattern : Text} {before rest : List Token} {message : Text} {index : Nat}

/-- What is wrong after some tokens depends on the tokens that follow them. -/
theorem meets_iff (h : tokens pattern = before ++ rest) :
    Meets pattern before.length message index ↔
      rest = [.backslash] ∧ message = "No character to escape" ∧ index = pattern.length - 1 ∨
      (∃ after, rest = .openingBrace :: after) ∧ IsOpen before ∧ message = "Cannot nest groups" ∧
        index = (before.flatMap Token.text).length ∨
      rest = [] ∧ IsOpen before ∧ message = "Missing closing brace" ∧
        index = pattern.length - 1 := by
  constructor
  · generalize hk : before.length = k
    intro hmeets
    cases hmeets with
    | noCharacterToEscape h' =>
      obtain ⟨rfl, rfl⟩ := List.append_inj (h.symm.trans h') hk
      exact .inl ⟨rfl, rfl, rfl⟩
    | nestedGroup h' hopen =>
      obtain ⟨rfl, rfl⟩ := List.append_inj (h.symm.trans h') hk
      exact .inr (.inl ⟨⟨_, rfl⟩, hopen, rfl, rfl⟩)
    | missingClosingBrace hopen =>
      obtain ⟨rfl, rfl⟩ := List.append_inj (h.symm.trans (List.append_nil _).symm) hk
      exact .inr (.inr ⟨rfl, by rwa [h, List.append_nil] at hopen, rfl, rfl⟩)
  · rintro (⟨rfl, rfl, rfl⟩ | ⟨⟨after, rfl⟩, hopen, rfl, rfl⟩ | ⟨rfl, hopen, rfl, rfl⟩)
    · exact .noCharacterToEscape h
    · exact .nestedGroup h hopen
    · rw [List.append_nil] at h
      subst h
      exact .missingClosingBrace hopen

theorem Meets.unique {message' : Text} {index' : Nat} (h : tokens pattern = before ++ rest)
    (hmeets : Meets pattern before.length message index)
    (hmeets' : Meets pattern before.length message' index') :
    message = message' ∧ index = index' := by
  have hne : Token.backslash ≠ .openingBrace := by simp [Token.backslash, Token.openingBrace]
  rw [meets_iff h] at hmeets hmeets'
  rcases hmeets with ⟨rfl, hm, hi⟩ | ⟨⟨after, rfl⟩, -, hm, hi⟩ | ⟨rfl, -, hm, hi⟩ <;>
  rcases hmeets' with ⟨hrest, hm', hi'⟩ | ⟨⟨after', hrest⟩, -, hm', hi'⟩ | ⟨hrest, -, hm', hi'⟩
  case inl.inr.inl => exact absurd (List.cons.inj hrest).1 hne
  case inr.inl.inl => exact absurd (List.cons.inj hrest).1.symm hne
  case inl.inl | inr.inl.inr.inl | inr.inr.inr.inr => exact ⟨hm.trans hm'.symm, hi.trans hi'.symm⟩
  all_goals cases hrest

theorem Meets.exists_problem {k : Nat} (h : Meets pattern k message index) :
    ∃ problem : Problem, problem.message = message := by
  cases h with
  | noCharacterToEscape => exact ⟨.noCharacterToEscape, rfl⟩
  | nestedGroup => exact ⟨.nestedGroup, rfl⟩
  | missingClosingBrace => exact ⟨.missingClosingBrace, rfl⟩

theorem Meets.le_length_tokens {k : Nat} (h : Meets pattern k message index) :
    k ≤ (tokens pattern).length := by
  cases h with
  | noCharacterToEscape h => simp [h]
  | nestedGroup h => simp [h]
  | missingClosingBrace => exact Nat.le_refl _

theorem Meets.lt_length {k : Nat} (h : Meets pattern k message index) : index < pattern.length := by
  have hlast (hne : tokens pattern ≠ []) : pattern.length - 1 < pattern.length := by
    refine Nat.sub_one_lt fun hlen => hne ?_
    rw [List.eq_nil_of_length_eq_zero hlen]
    rfl
  cases h with
  | noCharacterToEscape h => exact hlast (by simp [h])
  | @nestedGroup before after h =>
    have hpattern := congrArg (fun l => (List.flatMap Token.text l).length) h
    simp only [flatMap_text_tokens, List.flatMap_append, List.flatMap_cons, List.length_append]
      at hpattern
    have hbrace : Token.openingBrace.text.length = 1 := rfl
    omega
  | missingClosingBrace hopen =>
    refine hlast fun hnil => not_isOpen_nil ?_
    rwa [hnil] at hopen

end

/-! ## The first place -/

/-- What is wrong first from a number of tokens on. -/
def MeetsFirst (pattern : Text) (start : Nat) (message : Text) (index : Nat) : Prop :=
  ∃ k, start ≤ k ∧ Meets pattern k message index ∧
    ∀ k' message' index', start ≤ k' → Meets pattern k' message' index' → k ≤ k'

section

variable {pattern : Text} {before rest : List Token} {message : Text} {index : Nat}

theorem meetsFirst_of_meets (h : tokens pattern = before ++ rest)
    (hmeets : Meets pattern before.length message index) {message' : Text} {index' : Nat} :
    MeetsFirst pattern before.length message' index' ↔ message = message' ∧ index = index' := by
  constructor
  · rintro ⟨k, hstart, hk, hfirst⟩
    obtain rfl := Nat.le_antisymm (hfirst _ _ _ (Nat.le_refl _) hmeets) hstart
    exact hmeets.unique h hk
  · rintro ⟨rfl, rfl⟩
    exact ⟨_, Nat.le_refl _, hmeets, fun k _ _ hk _ => hk⟩

theorem meetsFirst_of_not_meets {start : Nat} (h : ∀ m i, ¬Meets pattern start m i) :
    MeetsFirst pattern start message index ↔ MeetsFirst pattern (start + 1) message index := by
  have hlt {k : Nat} {m : Text} {i : Nat} (hk : start ≤ k) (hmeets : Meets pattern k m i) :
      start + 1 ≤ k := by
    refine Nat.lt_of_le_of_ne hk ?_
    rintro rfl
    exact h m i hmeets
  constructor
  · rintro ⟨k, hk, hmeets, hfirst⟩
    exact ⟨k, hlt hk hmeets, hmeets, fun k' m i hk' => hfirst k' m i (Nat.le_of_succ_le hk')⟩
  · rintro ⟨k, hk, hmeets, hfirst⟩
    exact ⟨k, Nat.le_of_succ_le hk, hmeets,
      fun k' m i hk' hmeets' => hfirst k' m i (hlt hk' hmeets') hmeets'⟩

theorem Meets.exists_meetsFirst {k : Nat} (h : Meets pattern k message index) :
    ∃ message' index', MeetsFirst pattern 0 message' index' := by
  classical
  have hex : ∃ k m i, Meets pattern k m i := ⟨k, message, index, h⟩
  obtain ⟨m, i, hmeets⟩ := Nat.find_spec hex
  exact ⟨m, i, Nat.find hex, Nat.zero_le _, hmeets,
    fun k' m' i' _ hmeets' => Nat.find_min' hex ⟨m', i', hmeets'⟩⟩

end

/-! ## Reading -/

/-- A result fails with what is wrong first from a number of tokens on, and with nothing else. -/
def Reports (pattern : Text) (start : Nat) (result : Except (Problem × Nat) Glob) : Prop :=
  ∀ problem index,
    result = .error (problem, index) ↔ MeetsFirst pattern start problem.message index

theorem Problem.message_injective {problem problem' : Problem}
    (h : problem.message = problem'.message) : problem = problem' := by
  cases problem <;> cases problem' <;> first | rfl | exact absurd h (by decide)

theorem Reports.map {pattern : Text} {start : Nat} {result : Except (Problem × Nat) Glob}
    (h : Reports pattern start result) (f : Glob → Glob) :
    Reports pattern start (result.map f) := by
  intro problem index
  rw [← h problem index]
  cases result <;> simp [Except.map]

/-- Placing an atom leaves the group open or closed, and the failures as they are. -/
theorem reports_place {pattern : Text} {start : Nat} {group : Option OpenGroup} {a : Atom}
    {following : Option OpenGroup → Except (Problem × Nat) Glob}
    (h : ∀ group', group'.isSome = group.isSome → Reports pattern start (following group')) :
    Reports pattern start (place a group following) := by
  cases group with
  | none => exact (h none rfl).map _
  | some opened => exact h (some (opened.push a)) rfl

/-- Reading stands behind some tokens of the pattern, before the rest of its text. -/
structure Reached (pattern : Text) (before : List Token) (t : Text) (group : Option OpenGroup)
    (position : Nat) : Prop where
  tokens : tokens pattern = before ++ tokens t
  isOpen : group.isSome = true ↔ IsOpen before
  position : position = (before.flatMap Token.text).length

section

variable {pattern : Text} {before : List Token} {t t' : Text} {token : Token}
  {group : Option OpenGroup} {position : Nat}

theorem Reached.next {group' : Option OpenGroup} (h : Reached pattern before t group position)
    (ht : Glob.tokens t = token :: Glob.tokens t')
    (hgroup : group'.isSome = true ↔
      token = .openingBrace ∨ token ≠ .closingBrace ∧ group.isSome = true) :
    Reached pattern (before ++ [token]) t' group' (position + token.text.length) where
  tokens := by rw [h.tokens, ht, List.append_assoc]; rfl
  isOpen := by rw [isOpen_concat, ← h.isOpen, hgroup]
  position := by simp [h.position]

/-- Behind a token that is not wrong, what is told is what is wrong later. -/
theorem Reached.reports_of_next {result : Except (Problem × Nat) Glob}
    (h : Reached pattern before t group position)
    (ht : Glob.tokens t = token :: Glob.tokens t')
    (hback : token = .backslash → t' ≠ []) (hbrace : token = .openingBrace → group = none)
    (hnext : Reports pattern (before ++ [token]).length result) :
    Reports pattern before.length result := by
  intro problem index
  have hnot : ∀ m i, ¬Meets pattern before.length m i := by
    intro m i hmeets
    rw [meets_iff h.tokens, ht] at hmeets
    rcases hmeets with ⟨hrest, -⟩ | ⟨⟨after, hrest⟩, hopen, -⟩ | ⟨hrest, -⟩
    · obtain ⟨htoken, ht'⟩ := List.cons.inj hrest
      refine hback htoken ?_
      rw [← flatMap_text_tokens t', ht']
      rfl
    · rw [← h.isOpen, hbrace (List.cons.inj hrest).1] at hopen
      cases hopen
    · cases hrest
  rw [hnext problem index, meetsFirst_of_not_meets hnot, List.length_append]
  rfl

theorem Reached.reports_of_meets {problem : Problem} {index : Nat}
    (h : Reached pattern before t group position)
    (hmeets : Meets pattern before.length problem.message index) :
    Reports pattern before.length (.error (problem, index)) := by
  intro problem' index'
  rw [meetsFirst_of_meets h.tokens hmeets, Except.error.injEq, Prod.mk.injEq]
  exact and_congr_left fun _ => ⟨congrArg _, Problem.message_injective⟩

theorem Reached.length_pattern (h : Reached pattern before t group position) :
    pattern.length = position + t.length := by
  have hpattern := congrArg (List.flatMap Token.text) h.tokens
  rw [List.flatMap_append, flatMap_text_tokens, flatMap_text_tokens] at hpattern
  rw [hpattern, List.length_append, h.position]

theorem Reached.reports_place {a : Atom} (h : Reached pattern before t group position)
    (ht : Glob.tokens t = token :: Glob.tokens t') (hback : token = .backslash → t' ≠ [])
    (hopen : token ≠ .openingBrace) (hclose : token = .closingBrace → group = none)
    (ih : ∀ group' {before' : List Token},
      Reached pattern before' t' group' (position + token.text.length) →
        Reports pattern before'.length (parseFrom (position + token.text.length) group' t')) :
    Reports pattern before.length
      (place a group fun g => parseFrom (position + token.text.length) g t') := by
  refine h.reports_of_next ht hback (fun hbrace => absurd hbrace hopen)
    (Glob.reports_place fun group' hgroup => ih group' (h.next ht ?_))
  rw [hgroup]
  constructor
  · intro hsome
    refine .inr ⟨fun heq => ?_, hsome⟩
    rw [hclose heq] at hsome
    cases hsome
  · rintro (heq | ⟨-, hsome⟩)
    · exact absurd heq hopen
    · exact hsome

/-- The braces and the comma of an open group change the group; the other tokens give atoms. -/
theorem reports_parseFrom (h : Reached pattern before t group position) :
    Reports pattern before.length (parseFrom position group t) := by
  induction position, group, t using parseFrom.induct generalizing before with
  | case1 position =>
    -- The text ends outside of groups, and behind its end there is nothing to meet.
    refine fun problem index => ⟨nofun, ?_⟩
    rintro ⟨k, hstart, hmeets, -⟩
    have hpattern : tokens pattern = before := h.tokens.trans (List.append_nil _)
    obtain rfl := Nat.le_antisymm (hpattern ▸ hmeets.le_length_tokens) hstart
    rw [meets_iff h.tokens] at hmeets
    rcases hmeets with ⟨hrest, -⟩ | ⟨⟨after, hrest⟩, -⟩ | ⟨-, hopen, -⟩
    · cases hrest
    · cases hrest
    · cases h.isOpen.2 hopen
  | case2 position opened =>
    have hpattern : tokens pattern = before := h.tokens.trans (List.append_nil _)
    have hlast : position - 1 = pattern.length - 1 := by rw [h.length_pattern]; rfl
    refine h.reports_of_meets ?_
    rw [hlast, ← hpattern]
    exact .missingClosingBrace (hpattern ▸ h.isOpen.1 rfl)
  | case3 position group =>
    have hlast : position = pattern.length - 1 := by rw [h.length_pattern]; rfl
    refine h.reports_of_meets ?_
    rw [hlast]
    exact .noCharacterToEscape h.tokens
  | case4 position group c t ih =>
    have htoken : tokens (.char '\\' :: c :: t) = .escaped c :: tokens t := rfl
    exact h.reports_place htoken nofun nofun nofun ih
  | case5 position group t ih =>
    have htoken : tokens (.char '*' :: .char '*' :: t) = .stars :: tokens t := rfl
    exact h.reports_place htoken nofun nofun nofun ih
  | case6 position group t hstar ih =>
    have htoken : tokens (.char '*' :: t) = .single (.char '*') :: tokens t := by
      refine tokens_single (by simp) fun _ hhead => ?_
      obtain ⟨t', rfl⟩ := List.head?_eq_some_iff.1 hhead
      exact hstar t' rfl
    rw [parseFrom.eq_6 position group t hstar]
    exact h.reports_place htoken nofun nofun nofun ih
  | case7 position group t ih =>
    exact h.reports_place (tokens_single (by simp) (by simp)) nofun nofun nofun ih
  | case8 position t ih =>
    have htoken : tokens (.char '\x7b' :: t) = .openingBrace :: tokens t :=
      tokens_single (by simp) (by simp)
    exact h.reports_of_next htoken nofun (fun _ => rfl) (ih (h.next htoken (by simp)))
  | case9 position t opened =>
    have htoken : tokens (.char '\x7b' :: t) = .openingBrace :: tokens t :=
      tokens_single (by simp) (by simp)
    refine h.reports_of_meets ?_
    rw [h.position]
    exact .nestedGroup (h.tokens.trans (by rw [htoken])) (h.isOpen.1 rfl)
  | case10 position t ih =>
    exact h.reports_place (tokens_single (by simp) (by simp)) nofun nofun nofun ih
  | case11 position t opened ih =>
    have htoken : tokens (.char ',' :: t) = .single (.char ',') :: tokens t :=
      tokens_single (by simp) (by simp)
    refine h.reports_of_next htoken nofun nofun (ih (h.next htoken ?_))
    simp [Token.openingBrace, Token.closingBrace]
  | case12 position t ih =>
    exact h.reports_place (tokens_single (by simp) (by simp)) nofun nofun (fun _ => rfl) ih
  | case13 position t opened ih =>
    have htoken : tokens (.char '\x7d' :: t) = .closingBrace :: tokens t :=
      tokens_single (by simp) (by simp)
    refine h.reports_of_next htoken nofun nofun (Reports.map (ih (h.next htoken ?_)) _)
    simp [Token.openingBrace, Token.closingBrace]
  | case14 position group c t h1 h2 h3 hstar hquestion hopen hcomma hclose ih =>
    have hback : t ≠ [] → c ≠ .char '\\' := by
      rintro ht rfl
      obtain ⟨d, t, rfl⟩ := List.exists_cons_of_ne_nil ht
      exact h2 d t rfl rfl
    rw [parseFrom.eq_14 position group c t h1 h2 h3 hstar hquestion hopen hcomma hclose]
    refine h.reports_place (tokens_single hback fun heq => absurd heq hstar) (fun heq ht => ?_)
      (fun heq => hopen (Token.single.inj heq))
      (fun heq => absurd (Token.single.inj heq) hclose) ih
    exact h1 (Token.single.inj heq) ht

end

theorem toRegexText_eq_error {pattern : Text} {e : SyntaxError} :
    toRegexText pattern = .error e ↔
      e.pattern = pattern ∧ MeetsFirst pattern 0 e.problem.message e.index := by
  have hreached : Reached pattern [] pattern none 0 := ⟨rfl, by simp [not_isOpen_nil], rfl⟩
  have hparse : parseFrom 0 none pattern = .error (e.problem, e.index) ↔
      MeetsFirst pattern 0 e.problem.message e.index :=
    reports_parseFrom hreached e.problem e.index
  rw [← hparse, toRegexText, parse]
  obtain ⟨problem, p, index⟩ := e
  cases parseFrom 0 none pattern with
  | ok g => simp [Except.map, Except.mapError]
  | error e =>
    simp only [Except.map, Except.mapError, Except.error.injEq, SyntaxError.mk.injEq, Prod.ext_iff]
    constructor
    · rintro ⟨hproblem, hpattern, hindex⟩
      exact ⟨hpattern.symm, hproblem, hindex⟩
    · rintro ⟨hpattern, hproblem, hindex⟩
      exact ⟨hproblem, hpattern.symm, hindex⟩

/-- A text has an expression unless something is wrong with it, and what is told is what is wrong
first: why, and a position of the text itself. -/
theorem toRegexText_eq_error_iff_meets (pattern : Text) :
    ((∃ e, toRegexText pattern = .error e) ↔ ∃ k message index, Meets pattern k message index) ∧
    (∀ e, toRegexText pattern = .error e ↔
      e.pattern = pattern ∧ ∃ k, Meets pattern k e.problem.message e.index ∧
        ∀ k' message index, Meets pattern k' message index → k ≤ k') ∧
    ∀ e, toRegexText pattern = .error e → e.index < pattern.length := by
  have hfirst (e : SyntaxError) : toRegexText pattern = .error e ↔
      e.pattern = pattern ∧ ∃ k, Meets pattern k e.problem.message e.index ∧
        ∀ k' message index, Meets pattern k' message index → k ≤ k' := by
    simp [toRegexText_eq_error, MeetsFirst]
  refine ⟨⟨?_, ?_⟩, hfirst, ?_⟩
  · rintro ⟨e, h⟩
    obtain ⟨-, k, hmeets, -⟩ := (hfirst e).1 h
    exact ⟨k, _, _, hmeets⟩
  · rintro ⟨k, message, index, h⟩
    obtain ⟨message, index, hmeets⟩ := h.exists_meetsFirst
    obtain ⟨k, -, hk, -⟩ := id hmeets
    obtain ⟨problem, rfl⟩ := hk.exists_problem
    exact ⟨⟨problem, pattern, index⟩, toRegexText_eq_error.2 ⟨rfl, hmeets⟩⟩
  · intro e h
    obtain ⟨-, k, hmeets, -⟩ := (hfirst e).1 h
    exact hmeets.lt_length

/-- A star stands for two characters of the expression or more, but for one of the pattern. -/
example : toRegexText "*.\x7bjpg,\x7b" = .error ⟨.nestedGroup, "*.\x7bjpg,\x7b", 7⟩ := by decide

end Glob
end ResourceFinder
