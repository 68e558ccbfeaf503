import ResourceFinder.Proofs.Except.Failure
import ResourceFinder.Proofs.Glob.Matching
import ResourceFinder.Proofs.Glob.Step

/-
One pattern written after another.

A pattern leaves no group open, so what follows it is read as if it stood alone, only further on.
The seam matters for stars alone: one at the end of the first text and one at the start of the second
are read together.
-/

namespace ResourceFinder
namespace Glob

variable {p q : Text} {g : Glob}

/-! ## Matchers of patterns -/

theorem compile_of_parse (h : parse p = .ok g) : compile p = .ok ⟨p, node g⟩ :=
  compile_of_spells (parse_eq_ok_iff.1 h)

theorem accepts_node (h : parse p = .ok g) (name : Text) :
    Matcher.accepts ⟨p, node g⟩ name = true ↔ name ∈ language g :=
  Regex.fullMatch_iff (recognises_node (parse_eq_ok_iff.1 h).isProper) name

theorem toRegexText_eq_ok {text : Text} :
    toRegexText p = .ok text ↔ ∃ g, parse p = .ok g ∧ regexText g = text :=
  map_eq_ok

/-! ## Reading on -/

/-- What follows a pattern is read from the position behind it. -/
theorem parseFrom_append (hp : parse p = .ok g)
    (hseam : ¬((tokens p).getLast? = some .star ∧ q.head? = some (.char '*'))) :
    parseFrom 0 none (p ++ q) =
      match parseFrom 0 none q with
      | .error (problem, index) => .error (problem, p.length + index)
      | .ok g' => .ok (g ++ g') := by
  rw [parse_eq_ok] at hp
  have htokens : tokens (p ++ q) = tokens p ++ tokens q :=
    tokens_append (backslash_not_mem_of_steps hp) fun hlast hhead => hseam ⟨hlast, hhead⟩
  rw [parseFrom_eq, parseFrom_eq, htokens, steps_append, hp, flatMap_text_tokens]
  show conclude 0 _ (behind g p.length (steps none (tokens q))) = _
  cases hq : steps none (tokens q) with
  | error e => simp [behind, conclude]
  | ok result =>
    obtain ⟨items, opened⟩ := result
    cases opened with
    | none => rfl
    | some opened =>
      -- A group is open behind the second text, so this has a last character.
      have hpos : 0 < q.length := by
        apply List.length_pos_of_ne_nil
        rintro rfl
        simp [tokens, steps] at hq
      have hlast : 0 + (p ++ q).length - 1 = p.length + (0 + q.length - 1) := by
        rw [List.length_append]
        omega
      simp only [behind, conclude, hlast]

theorem parse_append (hp : parse p = .ok g)
    (hseam : ¬((tokens p).getLast? = some .star ∧ q.head? = some (.char '*'))) :
    parse (p ++ q) =
      match parse q with
      | .error e => .error { e with pattern := p ++ q, index := p.length + e.index }
      | .ok g' => .ok (g ++ g') := by
  rw [parse, parse, parseFrom_append hp hseam]
  cases parseFrom 0 none q <;> rfl

theorem steps_eq_error_of_parse {e : SyntaxError} (h : parse p = .error e)
    (hproblem : e.problem ≠ .missingClosingBrace) :
    steps none (tokens p) = .error (e.problem, e.index) := by
  rw [parse, parseFrom_eq] at h
  cases hp : steps none (tokens p) with
  | error e' =>
    simp only [hp, conclude, Except.mapError, Except.error.injEq] at h
    subst h
    simp
  | ok result =>
    obtain ⟨items, opened⟩ := result
    cases opened with
    | none => simp [hp, conclude, Except.mapError] at h
    | some opened =>
      simp only [hp, conclude, Except.mapError, Except.error.injEq] at h
      subst h
      exact absurd rfl hproblem

/-- A brace inside of a group ends the reading there, whatever follows. -/
theorem parse_append_of_nestedGroup {e : SyntaxError} (h : parse p = .error e)
    (hnested : e.problem = .nestedGroup) (r : Text) :
    parse (p ++ r) = .error { e with pattern := p ++ r } := by
  have hsteps : steps none (tokens p) = .error (.nestedGroup, e.index) := by
    rw [← hnested]
    exact steps_eq_error_of_parse h (by simp [hnested])
  obtain ⟨before, token, after, items, group, htokens, hbefore, hstep, hindex⟩ :=
    exists_token_of_error hsteps
  obtain rfl := eq_openingBrace_of_step hstep
  have hp : p ++ r = before.flatMap Token.text ++ .char '\x7b' ::
      (after.flatMap Token.text ++ r) := by
    rw [← flatMap_text_tokens p, htokens]
    simp [Token.openingBrace, Token.text]
  have hparts : tokens (before.flatMap Token.text) = before := (tokens_parts htokens).1
  have htokens' : tokens (p ++ r) =
      before ++ .openingBrace :: tokens (after.flatMap Token.text ++ r) := by
    rw [hp, tokens_append (by rw [hparts]; exact backslash_not_mem_of_steps hbefore) (by simp),
      hparts, tokens_single (by simp) (by simp)]
    rfl
  have hsteps' : steps none (tokens (p ++ r)) = .error (e.problem, e.index) := by
    rw [htokens', steps_append, hbefore]
    simp only [steps, hstep, behind, Nat.add_zero, hindex, hnested]
  rw [parse, parseFrom_eq, hsteps']
  simp [conclude, Except.mapError]

theorem mem_language_append (g g' : Glob) (name : Text) :
    name ∈ language (g ++ g') ↔
      ∃ s s', name = s ++ s' ∧ s ∈ language g ∧ s' ∈ language g' := by
  rw [language, List.map_append, List.prod_append]
  constructor
  · intro h
    obtain ⟨s, hs, s', hs', heq⟩ := Language.mem_mul.1 h
    exact ⟨s, s', heq.symm, hs, hs'⟩
  · rintro ⟨s, s', rfl, hs, hs'⟩
    exact Language.append_mem_mul hs hs'

/-- Behind a pattern a text has the expression, or the error, that it has alone, the position of the
error counted from the start of the whole; a name of the whole is a name of each part, one behind the
other.  A brace inside of a group is told whatever is written behind it. -/
theorem toRegexText_append (p q : Text) :
    (∀ text, toRegexText p = .ok text →
      ¬((tokens p).getLast? = some .star ∧ q.head? = some (.char '*')) →
      (∀ text', toRegexText q = .ok text' →
        toRegexText (p ++ q) = .ok (text ++ text') ∧
        ∃ m m' m'', compile p = .ok m ∧ compile q = .ok m' ∧ compile (p ++ q) = .ok m'' ∧
          ∀ name, m''.accepts name = true ↔
            ∃ s s', name = s ++ s' ∧ m.accepts s = true ∧ m'.accepts s' = true) ∧
      ∀ e, toRegexText q = .error e →
        toRegexText (p ++ q) = .error { e with pattern := p ++ q, index := p.length + e.index }) ∧
    ∀ e, toRegexText p = .error e → e.problem.message = "Cannot nest groups" →
      ∀ r, toRegexText (p ++ r) = .error { e with pattern := p ++ r } := by
  refine ⟨?_, ?_⟩
  · intro text htext hseam
    obtain ⟨g, hp, rfl⟩ := toRegexText_eq_ok.1 htext
    have hparse := parse_append hp hseam
    refine ⟨?_, ?_⟩
    · intro text' htext'
      obtain ⟨g', hq, rfl⟩ := toRegexText_eq_ok.1 htext'
      rw [hq] at hparse
      have hregex : regexText (g ++ g') = regexText g ++ regexText g' := List.flatMap_append
      refine ⟨toRegexText_eq_ok.2 ⟨g ++ g', hparse, hregex⟩, _, _, _, compile_of_parse hp,
        compile_of_parse hq, compile_of_parse hparse, fun name => ?_⟩
      simp only [accepts_node hparse, accepts_node hp, accepts_node hq, mem_language_append]
    · intro e he
      have hq : parse q = .error e := map_eq_error.1 he
      rw [hq] at hparse
      exact map_eq_error.2 hparse
  · intro e he hmessage r
    have hnested : e.problem = .nestedGroup := Problem.message_injective hmessage
    exact map_eq_error.2 (parse_append_of_nestedGroup (map_eq_error.1 he) hnested r)

/-- Two stars and a third one at the seam, an open group behind it, and a brace inside of a group. -/
theorem toRegexText_append_threeStars :
    (toRegexText "\x7ba,\x7d**" = .ok "(?:a|).*" ∧ toRegexText "*.c" = .ok "[^/]*\\.c" ∧
      toRegexText "\x7ba,\x7d***.c" = .ok "(?:a|).*[^/]*\\.c") ∧
    (toRegexText "*\x7b" = .error ⟨.missingClosingBrace, "*\x7b", 1⟩ ∧
      toRegexText "\x7ba,\x7d***\x7b" = .error ⟨.missingClosingBrace, "\x7ba,\x7d***\x7b", 7⟩) ∧
    (toRegexText "\x7ba,\x7b*" = .error ⟨.nestedGroup, "\x7ba,\x7b*", 3⟩ ∧
      toRegexText "\x7ba,\x7b**\x7d\\" = .error ⟨.nestedGroup, "\x7ba,\x7b**\x7d\\", 3⟩) := by
  have hp : toRegexText "\x7ba,\x7d**" = .ok "(?:a|).*" := by decide
  have hq : toRegexText "*.c" = .ok "[^/]*\\.c" := by decide
  have hopen : toRegexText "*\x7b" = .error ⟨.missingClosingBrace, "*\x7b", 1⟩ := by decide
  have hnested : toRegexText "\x7ba,\x7b*" = .error ⟨.nestedGroup, "\x7ba,\x7b*", 3⟩ := by decide
  have hafter := (toRegexText_append "\x7ba,\x7d**" "*.c").1 _ hp (by decide)
  have hafter' := (toRegexText_append "\x7ba,\x7d**" "*\x7b").1 _ hp (by decide)
  exact ⟨⟨hp, hq, (hafter.1 _ hq).1⟩, ⟨hopen, hafter'.2 _ hopen⟩,
    ⟨hnested, (toRegexText_append "\x7ba,\x7b*" "").2 _ hnested rfl "*\x7d\\"⟩⟩

/-- Two stars of which each is a pattern make a pattern of other names. -/
example : toRegexText ("*" ++ "*") = .ok ".*" ∧ toRegexText "*" = .ok "[^/]*" := by decide

end Glob
end ResourceFinder
