import Mathlib.Data.List.Induction
import ResourceFinder.Proofs.Glob.Malformed

/-
Reading a pattern one token at a time.

All that reading keeps from one token to the next is the group that is open, so what some tokens do
to it says all that matters about them to the tokens that follow.  `steps` puts the tokens of a text
together, counting positions from where the text starts, and `parseFrom_eq` says that reading the
text is nothing else; what is proved below is by induction on the tokens, with one case for them all.
-/

namespace ResourceFinder
namespace Glob

deriving instance DecidableEq for Token

def put (a : Atom) : Option OpenGroup → Glob × Option OpenGroup
  | none => ([.atom a], none)
  | some opened => ([], some (opened.push a))

namespace Token

def comma : Token := single (.char ',')

def star : Token := single (.char '*')

/-- The atom of a token that is no mark where it stands. -/
def atom : Token → Atom
  | escaped c => .literal c
  | stars => .anything
  | single c =>
    if c = .char '*' then .anySegment else if c = .char '?' then .anyChar else .literal c

/-- What a token does where a group may be open: the items that it completes and the group that is
open after it, or why no pattern has it there. -/
def step (group : Option OpenGroup) (token : Token) : Except Problem (Glob × Option OpenGroup) :=
  if token = backslash then .error .noCharacterToEscape
  else
    match group with
    | none =>
      if token = openingBrace then .ok ([], some .start) else .ok (put token.atom none)
    | some opened =>
      if token = openingBrace then .error .nestedGroup
      else if token = comma then .ok ([], some opened.alternative)
      else if token = closingBrace then .ok ([opened.close], none)
      else .ok (put token.atom (some opened))

end Token

def behind (items : Glob) (length : Nat) :
    Except (Problem × Nat) (Glob × Option OpenGroup) →
      Except (Problem × Nat) (Glob × Option OpenGroup)
  | .error (problem, index) => .error (problem, length + index)
  | .ok (more, group) => .ok (items ++ more, group)

/-- What tokens in a row do: the items that they complete and the group that is open after them, or
what is wrong first and how many characters are before it. -/
def steps : Option OpenGroup → List Token → Except (Problem × Nat) (Glob × Option OpenGroup)
  | group, [] => .ok ([], group)
  | group, token :: rest =>
    match token.step group with
    | .error problem => .error (problem, 0)
    | .ok (items, group') => behind items token.text.length (steps group' rest)

def conclude (position length : Nat) :
    Except (Problem × Nat) (Glob × Option OpenGroup) → Except (Problem × Nat) Glob
  | .error (problem, index) => .error (problem, position + index)
  | .ok (items, none) => .ok items
  | .ok (_, some _) => .error (.missingClosingBrace, position + length - 1)

section

variable {group : Option OpenGroup} {token : Token} {ts : List Token} {position : Nat} {t : Text}

/-! ## One token -/

theorem step_cases {result : Glob × Option OpenGroup} (h : token.step group = .ok result) :
    (result = put token.atom group ∧ token ≠ .openingBrace ∧
      (group.isSome = true → token ≠ .closingBrace)) ∨
    (token = .openingBrace ∧ group = none ∧ result = ([], some .start)) ∨
    (token = .comma ∧ ∃ opened, group = some opened ∧ result = ([], some opened.alternative)) ∨
    (token = .closingBrace ∧ ∃ opened, group = some opened ∧ result = ([opened.close], none)) := by
  by_cases hback : token = .backslash
  · simp [Token.step, hback] at h
  by_cases hopen : token = .openingBrace
  · cases group with
    | none =>
      simp only [Token.step, if_neg hback, if_pos hopen, Except.ok.injEq] at h
      exact .inr (.inl ⟨hopen, rfl, h.symm⟩)
    | some opened => simp only [Token.step, if_neg hback, if_pos hopen, reduceCtorEq] at h
  cases group with
  | none =>
    simp only [Token.step, if_neg hback, if_neg hopen, Except.ok.injEq] at h
    exact .inl ⟨h.symm, hopen, nofun⟩
  | some opened =>
    simp only [Token.step, if_neg hback, if_neg hopen] at h
    split at h
    case isTrue hcomma => exact .inr (.inr (.inl ⟨hcomma, opened, rfl, (Except.ok.inj h).symm⟩))
    case isFalse =>
      split at h
      case isTrue hclose => exact .inr (.inr (.inr ⟨hclose, opened, rfl, (Except.ok.inj h).symm⟩))
      case isFalse hclose => exact .inl ⟨(Except.ok.inj h).symm, hopen, fun _ => hclose⟩

/-- The braces open and close a group, and no other token does. -/
theorem isSome_of_step {items : Glob} {group' : Option OpenGroup}
    (h : token.step group = .ok (items, group')) :
    group'.isSome = true ↔
      token = .openingBrace ∨ token ≠ .closingBrace ∧ group.isSome = true := by
  obtain ⟨hput, hopen, hclose⟩ | ⟨rfl, rfl, hstart⟩ | ⟨rfl, opened, rfl, hnext⟩ |
    ⟨rfl, opened, rfl, hdone⟩ := step_cases h
  · obtain rfl : group' = (put token.atom group).2 := congrArg Prod.snd hput
    cases group with
    | none => simp [put, hopen]
    | some opened => simp [put, hclose rfl]
  · obtain rfl : group' = some .start := congrArg Prod.snd hstart
    simp
  · obtain rfl : group' = some opened.alternative := congrArg Prod.snd hnext
    simp [Token.comma, Token.closingBrace]
  · obtain rfl : group' = none := congrArg Prod.snd hdone
    simp [Token.closingBrace, Token.openingBrace]

theorem eq_openingBrace_of_step (h : token.step group = .error .nestedGroup) :
    token = .openingBrace := by
  by_cases hback : token = .backslash
  · simp [Token.step, hback] at h
  by_cases hopen : token = .openingBrace
  · exact hopen
  cases group with
  | none => simp [Token.step, hback, hopen] at h
  | some opened =>
    simp only [Token.step, if_neg hback, if_neg hopen] at h
    split at h
    · cases h
    · split at h <;> cases h

/-! ## Reading -/

theorem conclude_cons {first : Glob × Option OpenGroup} (h : token.step group = .ok first) :
    conclude position (token.text ++ t).length (steps group (token :: ts)) =
      (conclude (position + token.text.length) t.length (steps first.2 ts)).map
        (first.1 ++ ·) := by
  simp only [steps, h, List.length_append]
  cases steps first.2 ts with
  | error e => simp [behind, conclude, Except.map, Nat.add_assoc]
  | ok later =>
    obtain ⟨items, opened⟩ := later
    cases opened with
    | none => rfl
    | some opened => simp [behind, conclude, Except.map, Nat.add_assoc]

theorem map_nil_append (result : Except (Problem × Nat) Glob) : result.map ([] ++ ·) = result := by
  cases result <;> rfl

theorem place_eq_map (a : Atom) (following : Option OpenGroup → Except (Problem × Nat) Glob) :
    place a group following = (following (put a group).2).map ((put a group).1 ++ ·) := by
  cases group with
  | none => rfl
  | some opened => exact (map_nil_append _).symm

theorem place_eq_conclude (hstep : token.step group = .ok (put token.atom group))
    (ih : ∀ group', parseFrom (position + token.text.length) group' t =
      conclude (position + token.text.length) t.length (steps group' ts)) :
    place token.atom group (fun group' => parseFrom (position + token.text.length) group' t) =
      conclude position (token.text ++ t).length (steps group (token :: ts)) := by
  rw [place_eq_map, conclude_cons hstep, ih]

/-- A character that is no mark gives itself, in a group and outside of one. -/
theorem step_single {c : CodePoint} (hback : c ≠ .char '\\') (hopen : c ≠ .char '\x7b')
    (hcomma : group.isSome → c ≠ .char ',') (hclose : group.isSome → c ≠ .char '\x7d') :
    (Token.single c).step group = .ok (put (Token.single c).atom group) := by
  cases group with
  | none => simp [Token.step, Token.backslash, Token.openingBrace, hback, hopen]
  | some opened =>
    simp [Token.step, Token.backslash, Token.openingBrace, Token.comma, Token.closingBrace, hback,
      hopen, hcomma rfl, hclose rfl]

/-- Reading a text is what its tokens do, one after the other. -/
theorem parseFrom_eq (position : Nat) (group : Option OpenGroup) (t : Text) :
    parseFrom position group t = conclude position t.length (steps group (tokens t)) := by
  induction position, group, t using parseFrom.induct with
  | case1 position => rfl
  | case2 position opened => rfl
  | case3 position group => rfl
  | case4 position group c t ih =>
    have hstep : (Token.escaped c).step group = .ok (put (.literal c) group) := by
      cases group <;> rfl
    exact place_eq_conclude hstep ih
  | case5 position group t ih =>
    have hstep : Token.stars.step group = .ok (put .anything group) := by cases group <;> rfl
    exact place_eq_conclude hstep ih
  | case6 position group t hstar ih =>
    have htoken : tokens (.char '*' :: t) = .star :: tokens t := by
      refine tokens_single (by simp) fun _ hhead => ?_
      obtain ⟨t', rfl⟩ := List.head?_eq_some_iff.1 hhead
      exact hstar t' rfl
    have hstep : Token.star.step group = .ok (put .anySegment group) :=
      step_single (by decide) (by decide) (fun _ => by decide) (fun _ => by decide)
    rw [parseFrom.eq_6 position group t hstar, htoken]
    exact place_eq_conclude hstep ih
  | case7 position group t ih =>
    have hstep : (Token.single (.char '?')).step group = .ok (put .anyChar group) :=
      step_single (by decide) (by decide) (fun _ => by decide) (fun _ => by decide)
    rw [tokens_single (by simp) (by simp)]
    exact place_eq_conclude hstep ih
  | case8 position t ih =>
    have hstep : Token.openingBrace.step none = .ok ([], some .start) := rfl
    rw [tokens_single (by simp) (by simp), parseFrom.eq_8, ih, ← map_nil_append (conclude _ _ _)]
    exact (conclude_cons hstep).symm
  | case9 position t opened =>
    rw [tokens_single (by simp) (by simp)]
    rfl
  | case10 position t ih =>
    have hstep : (Token.single (.char ',')).step none = .ok (put (.literal (.char ',')) none) := rfl
    rw [tokens_single (by simp) (by simp)]
    exact place_eq_conclude hstep ih
  | case11 position t opened ih =>
    have hstep : Token.comma.step (some opened) = .ok ([], some opened.alternative) := rfl
    rw [tokens_single (by simp) (by simp), parseFrom.eq_11, ih, ← map_nil_append (conclude _ _ _)]
    exact (conclude_cons hstep).symm
  | case12 position t ih =>
    have hstep : Token.closingBrace.step none = .ok (put (.literal (.char '\x7d')) none) := rfl
    rw [tokens_single (by simp) (by simp)]
    exact place_eq_conclude hstep ih
  | case13 position t opened ih =>
    have hstep : Token.closingBrace.step (some opened) = .ok ([opened.close], none) := rfl
    rw [tokens_single (by simp) (by simp), parseFrom.eq_13, ih]
    exact (conclude_cons hstep).symm
  | case14 position group c t h1 h2 h3 hstar hquestion hopen hcomma hclose ih =>
    have hback : c ≠ .char '\\' := by
      rintro rfl
      cases t with
      | nil => exact h1 rfl rfl
      | cons d t => exact h2 d t rfl rfl
    have hatom : (Token.single c).atom = .literal c := by
      rw [Token.atom, if_neg hstar, if_neg hquestion]
    have hstep : (Token.single c).step group = .ok (put (Token.single c).atom group) :=
      step_single hback hopen (fun _ => hcomma) (fun _ => hclose)
    rw [parseFrom.eq_14 position group c t h1 h2 h3 hstar hquestion hopen hcomma hclose,
      tokens_single (fun _ => hback) (fun h => absurd h hstar), ← hatom]
    exact place_eq_conclude hstep ih

/-! ## Tokens in a row -/

theorem behind_nil (result : Except (Problem × Nat) (Glob × Option OpenGroup)) :
    behind [] 0 result = result := by
  cases result with
  | error e => simp [behind]
  | ok later => rfl

theorem behind_behind (items items' : Glob) (n n' : Nat)
    (result : Except (Problem × Nat) (Glob × Option OpenGroup)) :
    behind items n (behind items' n' result) = behind (items ++ items') (n + n') result := by
  cases result with
  | error e => simp [behind, Nat.add_assoc]
  | ok later => simp [behind]

/-- The next tokens find the group that the first ones leave open; what is wrong with the first ones
is wrong whatever follows. -/
theorem steps_append (group : Option OpenGroup) (ts us : List Token) :
    steps group (ts ++ us) =
      match steps group ts with
      | .error e => .error e
      | .ok (items, group') => behind items (ts.flatMap Token.text).length (steps group' us) := by
  induction ts generalizing group with
  | nil => exact (behind_nil _).symm
  | cons token ts ih =>
    simp only [List.cons_append, steps]
    cases token.step group with
    | error problem => rfl
    | ok first =>
      simp only [ih]
      cases steps first.2 ts with
      | error e => rfl
      | ok later =>
        rw [behind_behind, List.flatMap_cons, List.length_append]
        rfl

theorem exists_of_steps_cons {result : Glob × Option OpenGroup}
    (h : steps group (token :: ts) = .ok result) :
    ∃ first later, token.step group = .ok first ∧ steps first.2 ts = .ok later ∧
      result = (first.1 ++ later.1, later.2) := by
  cases hstep : token.step group with
  | error problem => simp [steps, hstep] at h
  | ok first =>
    cases hts : steps first.2 ts with
    | error e => simp [steps, hstep, hts, behind] at h
    | ok later =>
      simp only [steps, hstep, hts, behind, Except.ok.injEq] at h
      exact ⟨first, later, rfl, hts, h.symm⟩

theorem exists_of_steps_append {us : List Token} {result : Glob × Option OpenGroup}
    (h : steps group (ts ++ us) = .ok result) :
    ∃ items group' later, steps group ts = .ok (items, group') ∧ steps group' us = .ok later ∧
      result = (items ++ later.1, later.2) := by
  rw [steps_append] at h
  cases hts : steps group ts with
  | error e => simp [hts] at h
  | ok first =>
    cases hus : steps first.2 us with
    | error e => simp [hts, hus, behind] at h
    | ok later =>
      simp only [hts, hus, behind, Except.ok.injEq] at h
      exact ⟨first.1, first.2, later, rfl, hus, h.symm⟩

/-- What is wrong first shows at a token behind tokens that are taken. -/
theorem exists_token_of_error {problem : Problem} {index : Nat}
    (h : steps group ts = .error (problem, index)) :
    ∃ before token after items group', ts = before ++ token :: after ∧
      steps group before = .ok (items, group') ∧ token.step group' = .error problem ∧
      index = (before.flatMap Token.text).length := by
  induction ts generalizing group index with
  | nil => cases h
  | cons token ts ih =>
    cases hstep : token.step group with
    | error problem' =>
      simp only [steps, hstep, Except.error.injEq, Prod.mk.injEq] at h
      obtain ⟨rfl, rfl⟩ := h
      exact ⟨[], token, ts, [], group, rfl, rfl, hstep, rfl⟩
    | ok first =>
      cases hts : steps first.2 ts with
      | ok later => simp [steps, hstep, hts, behind] at h
      | error e =>
        simp only [steps, hstep, hts, behind, Except.error.injEq, Prod.mk.injEq] at h
        obtain ⟨rfl, rfl⟩ := h
        obtain ⟨before, wrong, after, items, group', rfl, hbefore, hwrong, hindex⟩ := ih hts
        refine ⟨token :: before, wrong, after, first.1 ++ items, group', rfl, ?_, hwrong, ?_⟩
        · simp only [steps, hstep, hbefore, behind]
        · rw [hindex, List.flatMap_cons, List.length_append]

theorem backslash_not_mem_of_steps {result : Glob × Option OpenGroup}
    (h : steps group ts = .ok result) : .backslash ∉ ts := by
  intro hmem
  obtain ⟨before, after, rfl⟩ := List.append_of_mem hmem
  obtain ⟨items, group', later, -, hlater, -⟩ := exists_of_steps_append h
  obtain ⟨first, rest, hstep, -, -⟩ := exists_of_steps_cons hlater
  simp [Token.step] at hstep

/-- A group is open behind the tokens of a text if their last brace opens one. -/
theorem isSome_of_steps {items : Glob} {group : Option OpenGroup}
    (h : steps none ts = .ok (items, group)) : group.isSome = true ↔ IsOpen ts := by
  induction ts using List.reverseRecOn generalizing items group with
  | nil =>
    obtain ⟨rfl, rfl⟩ := Prod.mk.inj (Except.ok.inj h)
    simp [not_isOpen_nil]
  | append_singleton ts token ih =>
    obtain ⟨items', group', later, hts, hlater, hresult⟩ := exists_of_steps_append h
    obtain ⟨first, rest, hstep, hrest, rfl⟩ := exists_of_steps_cons hlater
    obtain rfl := Except.ok.inj hrest
    obtain rfl : group = first.2 := congrArg Prod.snd hresult
    rw [isSome_of_step hstep, isOpen_concat, ih hts]

/-! ## Whole patterns -/

theorem parse_eq_ok {pattern : Text} {g : Glob} :
    parse pattern = .ok g ↔ steps none (tokens pattern) = .ok (g, none) := by
  rw [parse, parseFrom_eq]
  cases steps none (tokens pattern) with
  | error e => simp [conclude, Except.mapError]
  | ok result =>
    obtain ⟨items, opened⟩ := result
    cases opened with
    | none => simp [conclude, Except.mapError]
    | some opened => simp [conclude, Except.mapError]

end

/-! ## Parts of a text -/

/-- Two texts have their own tokens also where one follows the other, unless the first one ends in a
backslash or the seam makes two stars of one each. -/
theorem tokens_append {p q : Text} (hback : .backslash ∉ tokens p)
    (hstar : (tokens p).getLast? = some .star → q.head? ≠ some (.char '*')) :
    tokens (p ++ q) = tokens p ++ tokens q := by
  induction p using tokens.induct with
  | case1 => rfl
  | case2 c =>
    have hc : c ≠ .char '\\' := by
      rintro rfl
      exact hback List.mem_cons_self
    exact tokens_single (fun _ => hc) fun hc => hstar (by rw [hc]; rfl)
  | case3 c t ih =>
    have htail := ih (fun h => hback (List.mem_cons_of_mem _ h)) fun h => hstar (by
      simp [tokens, List.getLast?_cons, h])
    show _ :: tokens (t ++ q) = _ :: tokens t ++ tokens q
    rw [htail]
    rfl
  | case4 t ih =>
    have htail := ih (fun h => hback (List.mem_cons_of_mem _ h)) fun h => hstar (by
      simp [tokens, List.getLast?_cons, h])
    show _ :: tokens (t ++ q) = _ :: tokens t ++ tokens q
    rw [htail]
    rfl
  | case5 c t hne hnoback hnostar ih =>
    rw [tokens.eq_5 c t hne hnoback hnostar] at hback hstar ⊢
    have htail := ih (fun h => hback (List.mem_cons_of_mem _ h)) fun h => hstar (by
      simp [List.getLast?_cons, h])
    obtain ⟨d, t, rfl⟩ := List.exists_cons_of_ne_nil hne
    show tokens (c :: (d :: t ++ q)) = .single c :: (tokens (d :: t) ++ tokens q)
    rw [← htail]
    refine tokens_single (fun _ hc => hnoback d t hc rfl) fun hc hhead => ?_
    obtain rfl : d = .char '*' := Option.some.inj hhead
    exact hnostar t hc rfl

/-- The first token of a text is the first one also where less follows it, or nothing. -/
theorem exists_of_tokens_cons {t : Text} {token : Token} {ts : List Token}
    (h : tokens t = token :: ts) :
    ∃ t', t = token.text ++ t' ∧ tokens t' = ts ∧
      ∀ u, u <+: t' → tokens (token.text ++ u) = token :: tokens u := by
  have hhead {u t' : Text} (hu : u <+: t') {c : CodePoint} (h : u.head? = some c) :
      t'.head? = some c := by
    obtain ⟨v, rfl⟩ := hu
    simp [h]
  induction t using tokens.induct with
  | case1 => cases h
  | case2 c =>
    obtain ⟨rfl, rfl⟩ := List.cons.inj h
    refine ⟨[], rfl, rfl, fun u hu => ?_⟩
    rw [List.prefix_nil.1 hu]
    rfl
  | case3 c t _ =>
    obtain ⟨rfl, rfl⟩ := List.cons.inj h
    exact ⟨t, rfl, rfl, fun u _ => rfl⟩
  | case4 t _ =>
    obtain ⟨rfl, rfl⟩ := List.cons.inj h
    exact ⟨t, rfl, rfl, fun u _ => rfl⟩
  | case5 c t hne hback hstar _ =>
    rw [tokens.eq_5 c t hne hback hstar] at h
    obtain ⟨rfl, rfl⟩ := List.cons.inj h
    obtain ⟨d, t, rfl⟩ := List.exists_cons_of_ne_nil hne
    refine ⟨d :: t, rfl, rfl, fun u hu => tokens_single (fun _ hc => hback d t hc rfl) ?_⟩
    intro hc hu'
    obtain rfl : d = .char '*' := Option.some.inj (hhead hu hu')
    exact hstar t hc rfl

/-- Some of the tokens of a text are the tokens of what they are written as. -/
theorem tokens_parts {t : Text} {ts us : List Token} (h : tokens t = ts ++ us) :
    tokens (ts.flatMap Token.text) = ts ∧ tokens (us.flatMap Token.text) = us := by
  induction ts generalizing t with
  | nil =>
    refine ⟨rfl, ?_⟩
    rw [← show tokens t = us from h, flatMap_text_tokens]
  | cons token ts ih =>
    rw [List.cons_append] at h
    obtain ⟨t', -, ht', hfirst⟩ := exists_of_tokens_cons h
    obtain ⟨hts, hus⟩ := ih ht'
    have hprefix : ts.flatMap Token.text <+: t' := by
      rw [← flatMap_text_tokens t', ht', List.flatMap_append]
      exact List.prefix_append _ _
    refine ⟨?_, hus⟩
    rw [List.flatMap_cons, hfirst _ hprefix, hts]

end Glob
end ResourceFinder
