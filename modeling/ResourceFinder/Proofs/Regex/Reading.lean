import ResourceFinder.Regex.Parser

/-
Reading an expression in steps.

`Proceeds st tokens st' rest` says that reading `tokens` with `st` known comes, sooner or later, to
reading `rest` with `st'` known.  Steps compose, so what a longer text reads as follows from its
parts.  Positions count for messages alone and stay out of the relation; so does the fuel, of which
there is more than signs at every step.
-/

namespace ResourceFinder
namespace Regex

/-! ## Signs -/

namespace Token

theorem ofText_cons {c : CodePoint} (hc : c ≠ .char '\\') (t : Text) :
    ofText (c :: t) = plain c :: ofText t :=
  ofText.eq_4 c t (fun h _ => hc h) fun _ _ h _ => hc h

theorem ofText_append {u : Text} (hu : .char '\\' ∉ u) (t : Text) :
    ofText (u ++ t) = u.map plain ++ ofText t := by
  induction u with
  | nil => rfl
  | cons c u ih =>
    obtain ⟨hc, hu⟩ := not_or.1 (mt List.mem_cons.2 hu)
    rw [List.cons_append, ofText_cons (Ne.symm hc), ih hu, List.map_cons, List.cons_append]

end Token

/-! ## Trees -/

namespace Node

variable {template : Bool} {groups : List (Nat × Nat × Option Nat)} {ns : List Node}

theorem problem?_sequenceOf (h : ∀ n ∈ ns, n.problem? template groups = none) :
    (sequenceOf ns).problem? template groups = none := by
  induction ns using sequenceOf.induct with
  | case1 => rfl
  | case2 n => exact h n List.mem_cons_self
  | case3 n ns hne ih =>
    obtain ⟨hn, hns⟩ := List.forall_mem_cons.1 h
    rw [sequenceOf, problem?, hn, ih hns]
    · rfl
    · exact hne

theorem problem?_eitherOf (h : ∀ n ∈ ns, n.problem? template groups = none) :
    (eitherOf ns).problem? template groups = none := by
  induction ns using eitherOf.induct with
  | case1 => rfl
  | case2 n => exact h n List.mem_cons_self
  | case3 n ns hne ih =>
    obtain ⟨hn, hns⟩ := List.forall_mem_cons.1 h
    rw [eitherOf, problem?, hn, ih hns]
    · rfl
    · exact hne

end Node

/-- An expression without options and conditions on groups gives its tree if that has no problem. -/
theorem finish_eq_ok {st : State} (houter : st.outer = []) (hletters : st.letters = [])
    (hasked : st.asked = [])
    (hproblem : (Node.eitherOf st.frame.alternatives).problem? false st.widths = none) :
    finish st = .ok (.eitherOf st.frame.alternatives) := by
  have hcheck : st.checkLetters = .ok () := by
    rw [State.checkLetters, hletters]
    rfl
  unfold finish
  simp only [houter, hcheck, hasked, hletters, List.find?_nil, List.contains_nil, hproblem]
  rfl

/-- Signs of which the first is no part of a repetition sign before it. -/
def Apart (tokens : List Token) : Prop :=
  tokens.head? ≠ some .dangling ∧ tokens.head? ≠ some (.plain (.char '?')) ∧
    tokens.head? ≠ some (.plain (.char '+'))

theorem apart_nil : Apart [] := ⟨nofun, nofun, nofun⟩

theorem Source.check_of_head {p : Nat} {rest : List Token} (h : rest.head? ≠ some .dangling) :
    Source.check ⟨p, rest⟩ = .ok ⟨p, rest⟩ :=
  if_neg h

theorem Source.take_cons {p : Nat} {t : Token} {rest : List Token}
    (h : rest.head? ≠ some .dangling) :
    Source.take ⟨p, t :: rest⟩ = .ok (some t, ⟨p + t.text.length, rest⟩) := by
  simp only [Source.take, Source.check_of_head h]
  rfl

/-! ## Steps -/

/-- Reading comes from one place to another one. -/
def Proceeds (st : State) (tokens : List Token) (st' : State) (rest : List Token) : Prop :=
  ∀ p fuel, tokens.length < fuel → ∃ p' fuel', rest.length < fuel' ∧
    parseFrom fuel st ⟨p, tokens⟩ = parseFrom fuel' st' ⟨p', rest⟩

namespace Proceeds

theorem refl (st : State) (tokens : List Token) : Proceeds st tokens st tokens :=
  fun p fuel h => ⟨p, fuel, h, rfl⟩

theorem trans {st st' st'' : State} {tokens tokens' tokens'' : List Token}
    (h : Proceeds st tokens st' tokens') (h' : Proceeds st' tokens' st'' tokens'') :
    Proceeds st tokens st'' tokens'' := by
  intro p fuel hfuel
  obtain ⟨p', fuel', hfuel', he⟩ := h p fuel hfuel
  obtain ⟨p'', fuel'', hfuel'', he'⟩ := h' p' fuel' hfuel'
  exact ⟨p'', fuel'', hfuel'', he.trans he'⟩

theorem of_step {t : Token} {st st' : State} {tokens rest : List Token}
    (hlen : rest.length ≤ tokens.length)
    (h : ∀ p, ∃ p', ∀ fuel,
      parseFrom (fuel + 1) st ⟨p, t :: tokens⟩ = parseFrom fuel st' ⟨p', rest⟩) :
    Proceeds st (t :: tokens) st' rest := by
  intro p fuel hfuel
  obtain ⟨p', hp⟩ := h p
  cases fuel with
  | zero => simp at hfuel
  | succ fuel =>
    rw [List.length_cons] at hfuel
    exact ⟨p', fuel, by omega, hp fuel⟩

end Proceeds

section

variable {st st' : State} {p fuel : Nat} {tokens rest : List Token} {c : CodePoint} {s : Source}

theorem parseFrom_plain (hbar : c ≠ .char '|') (hclose : c ≠ .char ')')
    (hhead : tokens.head? ≠ some .dangling) (h : part c st ⟨p + 1, tokens⟩ = .ok (st', s)) :
    parseFrom (fuel + 1) st ⟨p, .plain c :: tokens⟩ = parseFrom fuel st' s := by
  rw [parseFrom.eq_2]
  split
  · contradiction
  · rename_i heq
    cases heq
    contradiction
  · rename_i heq
    cases heq
    contradiction
  · rename_i heq
    cases heq
    rw [Source.take_cons hhead]
    show (part c st ⟨p + 1, tokens⟩ >>= fun x => parseFrom fuel x.1 x.2) = _
    rw [h]
    rfl
  · rename_i heq
    cases heq
  · rename_i heq
    cases heq

theorem parseFrom_escaped (hhead : tokens.head? ≠ some .dangling)
    (h : escape c st ⟨p + 2, tokens⟩ = .ok (st', s)) :
    parseFrom (fuel + 1) st ⟨p, .escaped c :: tokens⟩ = parseFrom fuel st' s := by
  simp only [parseFrom, Source.take_cons hhead]
  show (escape c st ⟨p + 2, tokens⟩ >>= fun x => parseFrom fuel x.1 x.2) = _
  rw [h]
  rfl

/-! ## Parts that are one sign -/

/-- A sign without a meaning of its own stands for itself. -/
theorem proceeds_code (hflags : st.frame.flags.verbose = false)
    (hc : c.isOneOf specialChars = false) (hrest : rest.head? ≠ some .dangling) :
    Proceeds st (.plain c :: rest) (st.addCode c.code) rest := by
  have hne {d : Char} (hd : d ∈ specialChars) : c ≠ .char d := by
    rintro rfl
    simp only [CodePoint.isOneOf, List.contains_eq_mem, decide_eq_false_iff_not] at hc
    exact hc hd
  refine .of_step (Nat.le_refl _) fun p => ⟨p + 1, fun fuel => ?_⟩
  refine parseFrom_plain (hne (by decide)) (hne (by decide)) hrest ?_
  simp only [part, hflags, Bool.false_and, Bool.false_eq_true, if_false]
  split
  all_goals first | rfl | exact absurd rfl (hne (by decide))

/-- After a backslash a sign with a meaning of its own has none: no letter and no digit is among
them, and the backslash itself is the only one that stands for a character by its name. -/
theorem escape_special {d : Char} (hd : d ∈ specialChars) (st : State) (s : Source) :
    escape (.char d) st s = .ok (st.addCode d.toNat, s) := by
  have hnames : Escape.place? d = none ∧ Escape.category? d = none ∧
      (Escape.controlCode? d = none ∨ Escape.controlCode? d = some d.toNat) := by
    have hall : specialChars.all (fun d => Escape.place? d = none ∧ Escape.category? d = none ∧
        (Escape.controlCode? d = none ∨ Escape.controlCode? d = some d.toNat)) = true := by decide
    exact of_decide_eq_true (List.all_eq_true.1 hall d hd)
  have hsigns : d ≠ '0' ∧ d.isDigit = false ∧ d.isAlpha = false ∧
      d ≠ 'x' ∧ d ≠ 'u' ∧ d ≠ 'U' ∧ d ≠ 'N' := by
    have hall : specialChars.all (fun d => d ≠ '0' ∧ d.isDigit = false ∧ d.isAlpha = false ∧
        d ≠ 'x' ∧ d ≠ 'u' ∧ d ≠ 'U' ∧ d ≠ 'N') = true := by decide
    exact of_decide_eq_true (List.all_eq_true.1 hall d hd)
  obtain ⟨hplace, hcategory, hcontrol⟩ := hnames
  obtain ⟨hzero, hdigit, halpha, hx, hu, hU, hN⟩ := hsigns
  rcases hcontrol with hcontrol | hcontrol
  · simp only [escape, CodePoint.toChar?, Option.bind_some, hplace, hcategory, hcontrol]
    simp [hzero, CodePoint.isDigit, hdigit, Escape.code, CodePoint.isLetter, halpha, hx, hu, hU, hN]
    rfl
  · simp only [escape, CodePoint.toChar?, Option.bind_some, hplace, hcategory, hcontrol]

theorem proceeds_escaped (hc : c.isOneOf specialChars = true)
    (hrest : rest.head? ≠ some .dangling) :
    Proceeds st (.escaped c :: rest) (st.addCode c.code) rest := by
  refine .of_step (Nat.le_refl _) fun p => ⟨p + 2, fun fuel => parseFrom_escaped hrest ?_⟩
  cases c with
  | surrogate i => cases hc
  | char d => exact escape_special (List.contains_iff_mem.1 hc) st _

theorem proceeds_dot (hflags : st.frame.flags.verbose = false)
    (hrest : rest.head? ≠ some .dangling) :
    Proceeds st (.plain (.char '.') :: rest) (st.addTest .any) rest := by
  refine .of_step (Nat.le_refl _) fun p => ⟨p + 1, fun fuel => ?_⟩
  refine parseFrom_plain (by decide) (by decide) hrest ?_
  simp [part, hflags]

/-! ## Sets, repetitions and groups -/

/-- The set of all characters but one. -/
theorem proceeds_allBut (hflags : st.frame.flags.verbose = false) (hc : c ≠ .char ']')
    (hrest : rest.head? ≠ some .dangling) :
    Proceeds st (.plain (.char '[') :: .plain (.char '^') :: .plain c :: .plain (.char ']') :: rest)
      (st.addTest (.set true [.single c.code])) rest := by
  refine .of_step (by simp only [List.length_cons]; omega) fun p => ⟨p + 4, fun fuel => ?_⟩
  refine parseFrom_plain (by decide) (by decide) (by simp) ?_
  simp [part, hflags, set, Source.pass, Source.take, Source.check, setMembers, setMember,
    Token.text, hc, hrest, bind, Except.bind, pure, Except.pure]

/-- As many of the last part as possible. -/
theorem proceeds_star (st : State) {body : Node} {parts : List (Node × PartKind)}
    (hflags : st.frame.flags.verbose = false) (hparts : st.frame.parts = (body, .ordinary) :: parts)
    (hrest : Apart rest) :
    Proceeds st (.plain (.char '*') :: rest)
      { st with frame := { st.frame with
          parts := (.repeated 0 none .greedy body, .repetition) :: parts } } rest := by
  obtain ⟨hdangling, hquestion, hplus⟩ := hrest
  refine .of_step (Nat.le_refl _) fun p => ⟨p + 1, fun fuel => ?_⟩
  refine parseFrom_plain (by decide) (by decide) hdangling ?_
  simp [part, hflags, repeatLast, hparts, Source.pass, hquestion, hplus, bind, Except.bind, pure,
    Except.pure]

/-- A group that does not capture is open for its first alternative. -/
theorem parseFrom_open (hflags : st.frame.flags.verbose = false)
    (hrest : rest.head? ≠ some .dangling) :
    parseFrom (fuel + 1) st
        ⟨p, .plain (.char '(') :: .plain (.char '?') :: .plain (.char ':') :: rest⟩ =
      parseFrom fuel (st.openGroup .plain p st.frame.flags) ⟨p + 3, rest⟩ := by
  refine parseFrom_plain (by decide) (by decide) (by simp) ?_
  simp [part, hflags, group, Source.pass, Source.take, Source.check, Token.text, hrest, bind,
    Except.bind, pure, Except.pure]

/-- A bar ends an alternative of a group that is no condition. -/
theorem proceeds_bar (hopening : st.frame.opening = .plain) (hrest : rest.head? ≠ some .dangling) :
    Proceeds st (.plain (.char '|') :: rest)
      { st with frame := { st.frame with
          finished := Node.sequenceOf (st.frame.parts.reverse.map (·.1)) :: st.frame.finished
          parts := [] } } rest := by
  refine .of_step (Nat.le_refl _) fun p => ⟨p + 1, fun fuel => ?_⟩
  simp only [parseFrom, alternative, hopening, Source.take_cons hrest]
  rfl

/-- A parenthesis closes a group that does not capture. -/
theorem proceeds_close (st : State) {frame : Frame} {outer : List Frame}
    (houter : st.outer = frame :: outer) (hopening : st.frame.opening = .plain)
    (hrest : rest.head? ≠ some .dangling) :
    Proceeds st (.plain (.char ')') :: rest)
      (State.add { st with frame, outer } (Node.eitherOf st.frame.alternatives)) rest := by
  refine .of_step (Nat.le_refl _) fun p => ⟨p + 1, fun fuel => ?_⟩
  simp only [parseFrom, closeGroup, houter, hopening, Source.take_cons hrest]
  rfl

end

end Regex
end ResourceFinder
