import ResourceFinder.Proofs.CommandLine.Token
import ResourceFinder.Proofs.Except.Failure

/-
The options that reading arguments gives.

`Reads flags tokens given` follows the options alone: it takes them one after the other, each with
its value, and leaves out everything about the other arguments.  Reading succeeds exactly where it
holds, so what two readers give can be compared by induction on it.
-/

namespace ResourceFinder
namespace CommandLine

open ResourceFinder.CommandLine.Flag

/-! ## One option -/

/-- The value of an option, and what is left after it. -/
def valueFor (last : Flag) : Option Text → List (Text × Token) →
    Except Halt (Text × List (Text × Token))
  | some value, after => .ok (value, after)
  | none, after =>
    match last.takesValue, after with
    | false, after => .ok ([], after)
    | true, (value, .plain) :: after => .ok (value, after)
    | true, _ => .error (.usage (.valueMissing last))

/-- What an argument gives, and what is left after it and the value that may follow it. -/
def optionAt (flags : List Flag) (s : Spelled) (after : List (Text × Token)) :
    Except Halt (List Given × List (Text × Token)) := do
  let (before, last, value) ← (cluster flags s.flag s.spelling s.value).mapError Halt.usage
  let (text, rest) ← valueFor last value after
  let given ← (before.map (Given.mk · []) ++ [Given.mk last text]).mapM check
  return (given, rest)

theorem valueFor_eq_ok {last : Flag} {value : Option Text} {text : Text}
    {after rest : List (Text × Token)} (h : valueFor last value after = .ok (text, rest)) :
    (rest = after ∧ ∀ after', valueFor last value after' = .ok (text, after')) ∨
      (after = (text, .plain) :: rest ∧
        ∀ rest', valueFor last value ((text, .plain) :: rest') = .ok (text, rest')) := by
  unfold valueFor at h ⊢
  cases value with
  | some value =>
    obtain ⟨rfl, rfl⟩ := Prod.mk.inj (Except.ok.inj h)
    exact Or.inl ⟨rfl, fun _ => rfl⟩
  | none =>
    cases htakes : last.takesValue with
    | false =>
      simp only [htakes] at h
      obtain ⟨rfl, rfl⟩ := Prod.mk.inj (Except.ok.inj h)
      exact Or.inl ⟨rfl, fun _ => rfl⟩
    | true =>
      simp only [htakes] at h
      split at h
      · contradiction
      · obtain ⟨rfl, rfl⟩ := Prod.mk.inj (Except.ok.inj h)
        exact Or.inr ⟨rfl, fun _ => rfl⟩
      · cases h

theorem check_eq_ok {g g' : Given} (h : check g = .ok g') : g' = g := by
  unfold check at h
  split at h
  · cases h
  · split at h
    · cases h
    · exact (Except.ok.inj h).symm

theorem mapM_check_eq_ok {l given : List Given} :
    l.mapM check = .ok given ↔ given = l ∧ ∀ g ∈ l, check g = .ok g := by
  induction l generalizing given with
  | nil => simp [pure, Except.pure, eq_comm]
  | cons g l ih =>
    rw [List.mapM_cons]
    cases hg : check g with
    | error e => simp [bind, Except.bind, hg]
    | ok g' =>
      obtain rfl := check_eq_ok hg
      cases hl : l.mapM check with
      | error e =>
        have hnot : ¬ ∀ g ∈ l, check g = .ok g := fun hall => by simp [ih.2 ⟨rfl, hall⟩] at hl
        simp [bind, Except.bind, hnot]
      | ok given' =>
        obtain ⟨rfl, hall⟩ := ih.1 hl
        simp only [bind, Except.bind, pure, Except.pure, Except.ok.injEq, List.forall_mem_cons]
        exact ⟨fun heq => ⟨heq.symm, hg, hall⟩, fun ⟨heq, _⟩ => heq.symm⟩

theorem optionAt_eq_ok {flags : List Flag} {s : Spelled} {after rest : List (Text × Token)}
    {given : List Given} : optionAt flags s after = .ok (given, rest) ↔
      ∃ before last value text,
        cluster flags s.flag s.spelling s.value = .ok (before, last, value) ∧
        valueFor last value after = .ok (text, rest) ∧
        given = before.map (Given.mk · []) ++ [⟨last, text⟩] ∧ ∀ g ∈ given, check g = .ok g := by
  unfold optionAt
  constructor
  · intro h
    cases hcluster : cluster flags s.flag s.spelling s.value with
    | error e => simp [hcluster, Except.mapError, bind, Except.bind] at h
    | ok parts =>
      obtain ⟨before, last, value⟩ := parts
      cases hvalue : valueFor last value after with
      | error e => simp [hcluster, hvalue, Except.mapError, bind, Except.bind] at h
      | ok parts =>
        obtain ⟨text, rest'⟩ := parts
        cases hchecked : (before.map (Given.mk · []) ++ [Given.mk last text]).mapM check with
        | error e => simp [hcluster, hvalue, hchecked, Except.mapError, bind, Except.bind] at h
        | ok given' =>
          simp only [hcluster, hvalue, hchecked, Except.mapError, bind, Except.bind, pure,
            Except.pure, Except.ok.injEq, Prod.mk.injEq] at h
          obtain ⟨rfl, rfl⟩ := h
          obtain ⟨rfl, hall⟩ := mapM_check_eq_ok.1 hchecked
          exact ⟨before, last, value, text, rfl, hvalue, rfl, hall⟩
  · rintro ⟨before, last, value, text, hcluster, hvalue, rfl, hall⟩
    rw [hcluster]
    show (valueFor last value after >>= _) = _
    rw [hvalue]
    show (List.mapM check _ >>= _) = _
    rw [mapM_check_eq_ok.2 ⟨rfl, hall⟩]
    rfl

/-! ## Reading -/

/-- The options that tokens give. -/
inductive Reads (flags : List Flag) : List (Text × Token) → List Given → Prop where
  | nil : Reads flags [] []
  | other {x tokens given} (hx : ∀ s, x.2 ≠ .known s) (h : Reads flags tokens given) :
      Reads flags (x :: tokens) given
  | option {argument s after given rest more} (h : optionAt flags s after = .ok (given, rest))
      (hmore : Reads flags rest more) :
      Reads flags ((argument, .known s) :: after) (given ++ more)

theorem Reads.others {flags : List Flag} {run tokens : List (Text × Token)} {given : List Given}
    (hrun : ∀ x ∈ run, x.2.isOption = false) (h : Reads flags tokens given) :
    Reads flags (run ++ tokens) given := by
  induction run with
  | nil => exact h
  | cons x run ih =>
    refine .other (fun s hs => ?_) (ih fun y hy => hrun y (List.mem_cons_of_mem x hy))
    have hx := hrun x List.mem_cons_self
    rw [hs] at hx
    cases hx

theorem Reads.of_others {flags : List Flag} {run tokens : List (Text × Token)} {given : List Given}
    (hrun : ∀ x ∈ run, x.2.isOption = false) (h : Reads flags (run ++ tokens) given) :
    Reads flags tokens given := by
  induction run with
  | nil => exact h
  | cons x run ih =>
    obtain ⟨hx, hrun⟩ := List.forall_mem_cons.1 hrun
    cases h with
    | other _ h => exact ih hrun h
    | option h hmore => cases hx

section

variable {flags : List Flag} {run after tokens : List (Text × Token)} {argument : Text}

theorem takeWhile_run (x : Text × Token) (after : List (Text × Token))
    (hrun : ∀ y ∈ run, y.2.isOption = false) (hx : x.2.isOption = true) :
    (run ++ x :: after).takeWhile (!·.2.isOption) = run ∧
      (run ++ x :: after).dropWhile (!·.2.isOption) = x :: after := by
  have hnot : ∀ y ∈ run, (!y.2.isOption) = true := fun y hy => by simp [hrun y hy]
  constructor
  · rw [List.takeWhile_append_of_pos hnot, List.takeWhile_cons_of_neg (by simp [hx]),
      List.append_nil]
  · rw [List.dropWhile_append_of_pos hnot, List.dropWhile_cons_of_neg (by simp [hx])]

/-- The other arguments after a run of them, and those of the run that are left over. -/
def takeRun (run : List Text) (patterns : Option (List Text)) : Option (List Text) × List Text :=
  if run.isEmpty then (patterns, [])
  else match patterns with
    | none => (some run, [])
    | some patterns => (some patterns, run)

theorem readFrom_known (flags : List Flag) (after : List (Text × Token)) (argument : Text)
    (hrun : ∀ x ∈ run, x.2.isOption = false) (s : Spelled) (fuel : Nat)
    (patterns : Option (List Text)) :
    readFrom flags (fuel + 1) patterns (run ++ (argument, .known s) :: after) =
      optionAt flags s after >>= fun x =>
        (readFrom flags fuel (takeRun (run.map (·.1)) patterns).1 x.2).map fun more =>
          { more with
            given := x.1 ++ more.given
            leftOver := (takeRun (run.map (·.1)) patterns).2 ++ more.leftOver } := by
  obtain ⟨htake, hdrop⟩ := takeWhile_run (argument, .known s) after hrun rfl
  simp only [readFrom, htake, hdrop, takeRun]
  generalize (if (run.map (·.1)).isEmpty = true then (patterns, []) else _ :
    Option (List Text) × List Text) = parts
  unfold optionAt
  cases cluster flags s.flag s.spelling s.value with
  | error e => rfl
  | ok x =>
    obtain ⟨before, last, value⟩ := x
    have hvalue (text : Text) (rest : List (Text × Token)) :
        ((before.map (Given.mk · []) ++ [Given.mk last text]).mapM check >>= fun given =>
          readFrom flags fuel parts.1 rest >>= fun more =>
            pure { more with given := given ++ more.given, leftOver := parts.2 ++ more.leftOver }) =
        ((before.map (Given.mk · []) ++ [Given.mk last text]).mapM check >>= fun given =>
          (readFrom flags fuel parts.1 rest).map fun more =>
            { more with given := given ++ more.given, leftOver := parts.2 ++ more.leftOver }) := by
      cases (before.map (Given.mk · []) ++ [Given.mk last text]).mapM check with
      | error e => rfl
      | ok given => cases readFrom flags fuel parts.1 rest <;> rfl
    have hok {β : Type} (f : List Flag × Flag × Option Text → Except Halt β) :
        (Except.ok (before, last, value) >>= f) = f (before, last, value) := rfl
    simp only [Except.mapError, bind_assoc, pure_bind, valueFor, hok]
    cases value with
    | some value => exact hvalue value after
    | none =>
      cases last.takesValue with
      | false => exact hvalue [] after
      | true =>
        cases after with
        | nil => rfl
        | cons x after =>
          obtain ⟨value, token⟩ := x
          cases token with
          | plain => exact hvalue value after
          | known s => rfl
          | unknown => rfl
          | endOfOptions => rfl

theorem readFrom_unknown (flags : List Flag) (after : List (Text × Token)) (argument : Text)
    (hrun : ∀ x ∈ run, x.2.isOption = false) (fuel : Nat)
    (patterns : Option (List Text)) : ∃ patterns' leftOver,
      readFrom flags (fuel + 1) patterns (run ++ (argument, .unknown) :: after) =
        (readFrom flags fuel patterns' after).map fun more =>
          { more with leftOver := leftOver ++ argument :: more.leftOver } := by
  obtain ⟨htake, hdrop⟩ := takeWhile_run (argument, .unknown) after hrun rfl
  simp only [readFrom, htake, hdrop]
  generalize (if (run.map (·.1)).isEmpty = true then (patterns, []) else _ :
    Option (List Text) × List Text) = parts
  refine ⟨parts.1, parts.2, ?_⟩
  cases readFrom flags fuel parts.1 after <;> rfl

theorem readFrom_others (flags : List Flag) (hrun : ∀ x ∈ run, x.2.isOption = false)
    (fuel : Nat) (patterns : Option (List Text)) :
    ∃ a, readFrom flags (fuel + 1) patterns run = .ok a ∧ a.given = [] := by
  have hdrop : run.dropWhile (!·.2.isOption) = [] := by
    induction run with
    | nil => rfl
    | cons x run ih =>
      obtain ⟨hx, hrun⟩ := List.forall_mem_cons.1 hrun
      rw [List.dropWhile_cons_of_pos (by simp [hx])]
      exact ih hrun
  simp only [readFrom, hdrop]
  cases patterns with
  | none => exact ⟨_, rfl, rfl⟩
  | some patterns => exact ⟨_, rfl, rfl⟩

/-- Tokens are a run of other arguments, and an option after it, if there is any. -/
theorem exists_run (tokens : List (Text × Token)) : ∃ run, (∀ x ∈ run, x.2.isOption = false) ∧
    (tokens = run ∨ (∃ argument after, tokens = run ++ (argument, .unknown) :: after) ∨
      ∃ argument s after, tokens = run ++ (argument, .known s) :: after) := by
  induction tokens with
  | nil => exact ⟨[], by simp, Or.inl rfl⟩
  | cons x tokens ih =>
    obtain ⟨argument, token⟩ := x
    have hother (h : token.isOption = false) : ∃ run, (∀ x ∈ run, x.2.isOption = false) ∧
        ((argument, token) :: tokens = run ∨
          (∃ argument' after, (argument, token) :: tokens = run ++ (argument', .unknown) :: after) ∨
          ∃ argument' s after,
            (argument, token) :: tokens = run ++ (argument', .known s) :: after) := by
      obtain ⟨run, hrun, htokens⟩ := ih
      refine ⟨(argument, token) :: run, List.forall_mem_cons.2 ⟨h, hrun⟩, ?_⟩
      rcases htokens with rfl | ⟨argument', after, rfl⟩ | ⟨argument', s, after, rfl⟩
      · exact Or.inl rfl
      · exact Or.inr (Or.inl ⟨argument', after, rfl⟩)
      · exact Or.inr (Or.inr ⟨argument', s, after, rfl⟩)
    cases token with
    | known s => exact ⟨[], by simp, Or.inr (Or.inr ⟨argument, s, tokens, rfl⟩)⟩
    | unknown => exact ⟨[], by simp, Or.inr (Or.inl ⟨argument, tokens, rfl⟩)⟩
    | endOfOptions => exact hother rfl
    | plain => exact hother rfl

theorem rest_of_optionAt {s : Spelled} {rest : List (Text × Token)} {given : List Given}
    (h : optionAt flags s after = .ok (given, rest)) :
    after = rest ∨ ∃ text, after = (text, .plain) :: rest := by
  obtain ⟨before, last, value, text, -, hvalue, -⟩ := optionAt_eq_ok.1 h
  rcases valueFor_eq_ok hvalue with ⟨hrest, -⟩ | ⟨hafter, -⟩
  · exact Or.inl hrest.symm
  · exact Or.inr ⟨text, hafter⟩

theorem length_le_of_optionAt {s : Spelled} {rest : List (Text × Token)} {given : List Given}
    (h : optionAt flags s after = .ok (given, rest)) : rest.length ≤ after.length := by
  rcases rest_of_optionAt h with rfl | ⟨text, rfl⟩
  · exact Nat.le_refl _
  · simp

/-- Reading without anything left over takes every argument for an option that is known, or for no
option. -/
theorem reads_of_readFrom {fuel : Nat} {patterns : Option (List Text)} {a : Arguments}
    (hfuel : tokens.length < fuel) (h : readFrom flags fuel patterns tokens = .ok a) :
    Reads flags tokens a.given ∧ (a.leftOver = [] → ∀ x ∈ tokens, x.2 ≠ .unknown) := by
  induction fuel generalizing patterns tokens a with
  | zero => omega
  | succ fuel ih =>
    obtain ⟨run, hrun, htokens⟩ := exists_run tokens
    have hothers : ∀ x ∈ run, x.2 ≠ .unknown := by
      intro x hx heq
      have hoption := hrun x hx
      rw [heq] at hoption
      cases hoption
    rcases htokens with heq | ⟨argument, after, rfl⟩ | ⟨argument, s, after, rfl⟩
    · subst heq
      obtain ⟨a', ha', hgiven⟩ := readFrom_others flags hrun fuel patterns
      obtain rfl := Except.ok.inj (ha'.symm.trans h)
      have hreads : Reads flags (tokens ++ []) [] := .others hrun .nil
      rw [List.append_nil] at hreads
      rw [hgiven]
      exact ⟨hreads, fun _ => hothers⟩
    · obtain ⟨patterns', leftOver, heq⟩ := readFrom_unknown flags after argument hrun fuel patterns
      rw [heq] at h
      obtain ⟨more, hmore, rfl⟩ := map_eq_ok.1 h
      have hlength : after.length < fuel := by
        simp only [List.length_append, List.length_cons] at hfuel
        omega
      refine ⟨.others hrun (.other (by simp) (ih hlength hmore).1), fun hleft => ?_⟩
      exact absurd hleft (by simp)
    · have heq := readFrom_known flags after argument hrun s fuel patterns
      rw [heq] at h
      cases hoption : optionAt flags s after with
      | error e =>
        rw [hoption] at h
        cases h
      | ok parts =>
        obtain ⟨given, rest⟩ := parts
        rw [hoption] at h
        obtain ⟨more, hmore, rfl⟩ := map_eq_ok.1 h
        have hlength : rest.length < fuel := by
          have hle := length_le_of_optionAt hoption
          simp only [List.length_append, List.length_cons] at hfuel
          omega
        obtain ⟨hreads, hknown⟩ := ih hlength hmore
        refine ⟨.others hrun (.option hoption hreads), fun hleft x hx => ?_⟩
        have hmoreLeft := (List.append_eq_nil_iff.1 hleft).2
        rcases List.mem_append.1 hx with hx | hx
        · exact hothers x hx
        · rcases List.mem_cons.1 hx with rfl | hx
          · simp
          · rcases rest_of_optionAt hoption with rfl | ⟨text, rfl⟩
            · exact hknown hmoreLeft x hx
            · rcases List.mem_cons.1 hx with rfl | hx
              · simp
              · exact hknown hmoreLeft x hx

/-- Where the options can be read, reading succeeds and gives them. -/
theorem exists_readFrom {fuel : Nat} {given : List Given} (h : Reads flags tokens given)
    (hfuel : tokens.length < fuel) (patterns : Option (List Text)) :
    ∃ a, readFrom flags fuel patterns tokens = .ok a ∧ a.given = given := by
  induction fuel generalizing tokens given patterns with
  | zero => omega
  | succ fuel ih =>
    obtain ⟨run, hrun, htokens⟩ := exists_run tokens
    rcases htokens with heq | ⟨argument, after, rfl⟩ | ⟨argument, s, after, rfl⟩
    · subst heq
      obtain ⟨a, ha, hgiven⟩ := readFrom_others flags hrun fuel patterns
      rw [← List.append_nil tokens] at h
      cases h.of_others hrun
      exact ⟨a, ha, hgiven⟩
    · obtain ⟨patterns', leftOver, heq⟩ := readFrom_unknown flags after argument hrun fuel patterns
      cases h.of_others hrun with
      | other _ h =>
        have hlength : after.length < fuel := by
          simp only [List.length_append, List.length_cons] at hfuel
          omega
        obtain ⟨more, hmore, hgiven⟩ := ih h hlength patterns'
        rw [heq, hmore]
        exact ⟨_, rfl, hgiven⟩
    · have heq := readFrom_known flags after argument hrun s fuel patterns
      cases h.of_others hrun with
      | other hx _ => exact absurd rfl (hx s)
      | @option _ _ _ given rest more hoption hrest =>
        have hlength : rest.length < fuel := by
          have hle := length_le_of_optionAt hoption
          simp only [List.length_append, List.length_cons] at hfuel
          omega
        obtain ⟨a, ha, rfl⟩ := ih hrest hlength (takeRun (run.map (·.1)) patterns).1
        rw [heq, hoption]
        show ∃ a', (readFrom flags fuel _ rest).map _ = .ok a' ∧ _
        rw [ha]
        exact ⟨_, rfl, rfl⟩

end

end CommandLine
end ResourceFinder
