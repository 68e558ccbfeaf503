import ResourceFinder.Proofs.CommandLine.Precedence

/-
Arguments that send the output elsewhere.

One more argument after the last option changes where the output goes and nothing else.  It cannot
come just anywhere: after the mark that ends the options it would be a pattern, and between two
patterns it would part them.
-/

namespace ResourceFinder
namespace CommandLine

open ResourceFinder.CommandLine.Flag

/-! ## One option more -/

section

variable {flags : List Flag}

/-- What an option takes of what comes after it, it takes whatever comes then. -/
theorem exists_value_of_optionAt {s : Spelled} {after rest : List (Text × Token)}
    {given : List Given} (h : optionAt flags s after = .ok (given, rest)) :
    ∃ value, after = value ++ rest ∧ (∀ z ∈ value, z.2 = .plain) ∧
      ∀ rest', optionAt flags s (value ++ rest') = .ok (given, rest') := by
  obtain ⟨before, last, v, text, hcluster, hvalue, hgiven, hchecked⟩ := optionAt_eq_ok.1 h
  rcases valueFor_eq_ok hvalue with ⟨rfl, hany⟩ | ⟨rfl, hany⟩
  · exact ⟨[], rfl, by simp, fun rest' =>
      optionAt_eq_ok.2 ⟨before, last, v, text, hcluster, hany rest', hgiven, hchecked⟩⟩
  · exact ⟨[(text, .plain)], rfl, by simp, fun rest' =>
      optionAt_eq_ok.2 ⟨before, last, v, text, hcluster, hany rest', hgiven, hchecked⟩⟩

/-- Tokens that end with an option and its value. -/
def EndInOption (tokens : List (Text × Token)) : Prop :=
  ∃ early x value, tokens = early ++ x :: value ∧ x.2.isOption = true ∧
    ∀ z ∈ value, z.2 = Token.plain

theorem EndInOption.append {tokens : List (Text × Token)} (h : EndInOption tokens)
    (before : List (Text × Token)) : EndInOption (before ++ tokens) := by
  obtain ⟨early, x, value, rfl, hx, hvalue⟩ := h
  exact ⟨before ++ early, x, value, (List.append_assoc _ _ _).symm, hx, hvalue⟩

theorem readFrom_option {after : List (Text × Token)} {s : Spelled} {g : Given}
    (hg : optionAt flags s after = .ok ([g], after)) (argument : Text) (fuel : Nat)
    (patterns : Option (List Text)) :
    readFrom flags (fuel + 1) patterns ((argument, .known s) :: after) =
      (readFrom flags fuel patterns after).map fun more => { more with given := g :: more.given } := by
  have hnone : ∀ x ∈ ([] : List (Text × Token)), x.2.isOption = false := by simp
  have heq := readFrom_known flags after argument hnone s fuel patterns
  rw [List.nil_append, hg] at heq
  exact heq

/-- Where an option without a value of its own can be put in after all others. -/
theorem exists_readFrom_insert {fuel : Nat} {patterns : Option (List Text)}
    {tokens : List (Text × Token)} {a : Arguments} (hknown : ∀ x ∈ tokens, x.2 ≠ .unknown)
    (h : readFrom flags fuel patterns tokens = .ok a) (hgiven : a.given ≠ []) :
    ∃ before after, tokens = before ++ after ∧ EndInOption before ∧
      ∀ argument s g, (∀ rest, optionAt flags s rest = .ok ([g], rest)) →
        readFrom flags (fuel + 1) patterns (before ++ (argument, .known s) :: after) =
          .ok { a with given := a.given ++ [g] } := by
  induction fuel generalizing patterns tokens a with
  | zero =>
    rw [readFrom] at h
    obtain rfl := Except.ok.inj h
    exact absurd rfl hgiven
  | succ fuel ih =>
    obtain ⟨run, hrun, rfl | ⟨argument, after, rfl⟩ | ⟨argument, s, after, rfl⟩⟩ := exists_run tokens
    · obtain ⟨a', ha', hnone⟩ := readFrom_others flags hrun fuel patterns
      obtain rfl := Except.ok.inj (ha'.symm.trans h)
      exact absurd hnone hgiven
    · exact absurd rfl (hknown (argument, .unknown) (by simp))
    · rw [readFrom_known flags after argument hrun s fuel patterns] at h
      cases hoption : optionAt flags s after with
      | error e =>
        rw [hoption] at h
        cases h
      | ok parts =>
        obtain ⟨given, rest⟩ := parts
        rw [hoption] at h
        obtain ⟨more, hmore, rfl⟩ := map_eq_ok.1 h
        obtain ⟨value, rfl, hvalue, hany⟩ := exists_value_of_optionAt hoption
        have hend : EndInOption (run ++ (argument, .known s) :: value) :=
          ⟨run, _, value, rfl, rfl, hvalue⟩
        by_cases hlast : more.given = []
        · refine ⟨run ++ (argument, .known s) :: value, rest, by simp, hend,
            fun argument' s' g hg => ?_⟩
          rw [List.append_assoc, List.cons_append, readFrom_known flags _ argument hrun s, hany]
          show (readFrom flags (fuel + 1) _ ((argument', .known s') :: rest)).map _ = _
          rw [readFrom_option (hg rest), hmore, hlast]
          simp [Except.map, hlast]
        · have hrest : ∀ x ∈ rest, x.2 ≠ .unknown := fun x hx => hknown x (by simp [hx])
          obtain ⟨before, after, rfl, hend', hinsert⟩ := ih hrest hmore hlast
          refine ⟨run ++ (argument, .known s) :: (value ++ before), after, by simp, ?_,
            fun argument' s' g hg => ?_⟩
          · have hsplit : run ++ (argument, .known s) :: (value ++ before) =
                (run ++ (argument, .known s) :: value) ++ before := by simp
            rw [hsplit]
            exact hend'.append _
          · rw [List.append_assoc, List.cons_append, List.append_assoc,
              readFrom_known flags _ argument hrun s, hany]
            show (readFrom flags (fuel + 1) _ (before ++ (argument', .known s') :: after)).map _ = _
            rw [hinsert argument' s' g hg]
            simp [Except.map]

/-! ## One argument more -/

theorem tokensOf_dashes (flags : List Flag) (rest : List Text) :
    tokensOf flags ("--" :: rest) = .ok (("--", .endOfOptions) :: rest.map (·, Token.plain)) := by
  rw [tokensOf, if_pos rfl]

theorem tokensOf_cons {argument : Text} (h : argument ≠ ("--" : Text)) {rest : List Text}
    {tokens : List (Text × Token)} :
    tokensOf flags (argument :: rest) = .ok tokens ↔ ∃ t ts, tokenOf flags argument = .ok t ∧
      tokensOf flags rest = .ok ts ∧ tokens = (argument, t) :: ts := by
  rw [tokensOf, if_neg h]
  cases tokenOf flags argument with
  | error e => simp [bind, Except.bind]
  | ok t =>
    cases tokensOf flags rest with
    | error e => simp [bind, Except.bind]
    | ok ts => simp [bind, Except.bind, pure, Except.pure, eq_comm]

/-- The first token is of the first argument: the mark that ends the options, with nothing but plain
tokens after it, or any other, with the tokens of the rest after it. -/
theorem cons_of_tokensOf {arguments : List Text} {x : Text × Token} {after : List (Text × Token)}
    (h : tokensOf flags arguments = .ok (x :: after)) : ∃ rest, arguments = x.1 :: rest ∧
      (x = (("--" : Text), Token.endOfOptions) ∧ after = rest.map (·, Token.plain) ∨
        x.1 ≠ ("--" : Text) ∧ tokenOf flags x.1 = .ok x.2 ∧ tokensOf flags rest = .ok after) := by
  cases arguments with
  | nil => cases h
  | cons argument rest =>
    by_cases hdashes : argument = ("--" : Text)
    · subst hdashes
      rw [tokensOf_dashes] at h
      obtain ⟨rfl, rfl⟩ := List.cons.inj (Except.ok.inj h)
      exact ⟨rest, rfl, .inl ⟨rfl, rfl⟩⟩
    · obtain ⟨t, ts, ht, hts, heq⟩ := (tokensOf_cons hdashes).1 h
      obtain ⟨rfl, rfl⟩ := List.cons.inj heq
      exact ⟨rest, rfl, .inr ⟨hdashes, ht, hts⟩⟩

/-- Each argument is one token, and up to the mark that ends the options the tokens of arguments do
not depend on what comes after them. -/
theorem tokensOf_append {arguments : List Text} {before after : List (Text × Token)}
    (h : tokensOf flags arguments = .ok (before ++ after))
    (hdashes : ("--" : Text) ∉ before.map (·.1)) :
    ∃ rest, arguments = before.map (·.1) ++ rest ∧ tokensOf flags rest = .ok after ∧
      ∀ rest' after', tokensOf flags rest' = .ok after' →
        tokensOf flags (before.map (·.1) ++ rest') = .ok (before ++ after') := by
  induction before generalizing arguments with
  | nil => exact ⟨arguments, rfl, h, fun rest' after' h' => h'⟩
  | cons x before ih =>
    obtain ⟨hx, hbefore⟩ : ("--" : Text) ≠ x.1 ∧ ("--" : Text) ∉ before.map (·.1) := by
      simpa using hdashes
    obtain ⟨rest, rfl, ⟨rfl, -⟩ | ⟨hne, ht, hts⟩⟩ := cons_of_tokensOf h
    · exact absurd rfl hx
    · obtain ⟨rest, rfl, hafter, hany⟩ := ih hts hbefore
      exact ⟨rest, rfl, hafter, fun rest' after' h' =>
        (tokensOf_cons hne).2 ⟨x.2, _, ht, hany rest' after' h', rfl⟩⟩

theorem dashes_not_mem_of_plain {arguments : List Text} {value after : List (Text × Token)}
    (h : tokensOf flags arguments = .ok (value ++ after)) (hvalue : ∀ z ∈ value, z.2 = .plain) :
    ("--" : Text) ∉ value.map (·.1) := by
  induction value generalizing arguments with
  | nil => simp
  | cons z value ih =>
    obtain ⟨hz, hrest⟩ := List.forall_mem_cons.1 hvalue
    obtain ⟨rest, rfl, ⟨rfl, -⟩ | ⟨hne, -, hts⟩⟩ := cons_of_tokensOf h
    · cases hz
    · rw [List.map_cons, List.mem_cons, not_or]
      exact ⟨hne.symm, ih hts hrest⟩

/-- The mark that ends the options is not before an option. -/
theorem dashes_not_mem {arguments : List Text} {before after : List (Text × Token)}
    (h : tokensOf flags arguments = .ok (before ++ after)) (hend : EndInOption before) :
    ("--" : Text) ∉ before.map (·.1) := by
  obtain ⟨early, x, value, rfl, hx, hvalue⟩ := hend
  induction early generalizing arguments with
  | nil =>
    obtain ⟨rest, rfl, ⟨rfl, -⟩ | ⟨hne, -, hts⟩⟩ := cons_of_tokensOf h
    · cases hx
    · rw [List.nil_append, List.map_cons, List.mem_cons, not_or]
      exact ⟨hne.symm, dashes_not_mem_of_plain hts hvalue⟩
  | cons z early ih =>
    obtain ⟨rest, rfl, ⟨-, hplain⟩ | ⟨hne, -, hts⟩⟩ := cons_of_tokensOf h
    · have hmem : x ∈ rest.map (·, Token.plain) := by
        rw [← hplain]
        simp
      obtain ⟨argument, -, rfl⟩ := List.mem_map.1 hmem
      cases hx
    · rw [List.cons_append, List.map_cons, List.mem_cons, not_or]
      exact ⟨hne.symm, ih hts⟩

end

/-! ## The output elsewhere -/

/-- Two readings of arguments that give the same settings explicitly. -/
def SameSettings (explicit explicit' : List Text) : Prop :=
  ∀ f name, Options.settingName? f = some name → (name ∈ explicit' ↔ name ∈ explicit)

/-- Arguments that say the same as others did, but that the output goes to the standard output. -/
def Redirects (arguments : List Text) (o : Options) (explicit : List Text) : Prop :=
  ∃ explicit', Options.read arguments =
      .ok ({ o with output := Options.standardOutput }, explicit') ∧
    SameSettings explicit explicit'

/-- The argument that sends the output to the standard output. -/
def redirection : Text := "--output=-"

theorem tokenOf_redirection : tokenOf all redirection =
    .ok (.known ⟨.output, "--output", some "-"⟩) := by
  cbv

theorem optionAt_redirection (rest : List (Text × Token)) :
    optionAt all ⟨.output, "--output", some "-"⟩ rest =
      .ok ([⟨.output, Options.standardOutput⟩], rest) := by
  have hcluster : cluster all .output "--output" (some "-") = .ok ([], .output, some "-") := by
    cbv
  exact optionAt_eq_ok.2 ⟨[], .output, some "-", "-", hcluster, rfl, rfl, by simp [check]⟩

theorem ofArguments_redirection (a : Arguments) :
    Options.ofArguments { a with given := a.given ++ [⟨.output, Options.standardOutput⟩] } =
      { Options.ofArguments a with output := Options.standardOutput } := by
  simp [Options.ofArguments, Options.valuesOf]

theorem names_insert {before after : List (Text × Token)} {x : Text × Token} {f : Flag}
    (hx : ∀ s, x.2 = .known s → s.flag ≠ f) :
    Names (before ++ x :: after) f ↔ Names (before ++ after) f := by
  constructor
  · rintro ⟨y, hy, s, hs, hf⟩
    rw [List.mem_append, List.mem_cons] at hy
    obtain hy | rfl | hy := hy
    · exact ⟨y, List.mem_append_left _ hy, s, hs, hf⟩
    · exact absurd hf (hx s hs)
    · exact ⟨y, List.mem_append_right _ hy, s, hs, hf⟩
  · rintro ⟨y, hy, h⟩
    rcases List.mem_append.1 hy with hy | hy
    · exact ⟨y, List.mem_append_left _ hy, h⟩
    · exact ⟨y, List.mem_append_right _ (List.mem_cons_of_mem x hy), h⟩

theorem exists_arguments_of_read {arguments : List Text} {o : Options} {explicit : List Text}
    (hread : Options.read arguments = .ok (o, explicit)) :
    ∃ a, read all arguments = .ok a ∧ a.leftOver = [] ∧ o = Options.ofArguments a := by
  unfold Options.read at hread
  cases ha : read all arguments with
  | error e =>
    rw [ha] at hread
    cases hread
  | ok a =>
    rw [ha] at hread
    simp only [bind, Except.bind] at hread
    split at hread
    case isTrue => cases hread
    case isFalse hleft =>
      cases hknown : read configurable arguments with
      | error e =>
        rw [hknown] at hread
        cases hread
      | ok known =>
        rw [hknown] at hread
        obtain ⟨rfl, -⟩ := Prod.mk.inj (Except.ok.inj hread)
        exact ⟨a, rfl, by simpa using hleft, rfl⟩

/-- Arguments that can be read say the same about everything else with one argument more, which
sends the output to the standard output. -/
theorem exists_redirects {arguments : List Text} {o : Options} {explicit : List Text}
    (hread : Options.read arguments = .ok (o, explicit))
    (houtput : o.output ≠ Options.standardOutput) :
    ∃ before after, arguments = before ++ after ∧
      Redirects (before ++ redirection :: after) o explicit := by
  obtain ⟨a, ha, hleft, rfl⟩ := exists_arguments_of_read hread
  obtain ⟨explicit₁, hread₁, hexplicit⟩ := Options.exists_read ha hleft
  obtain rfl : explicit₁ = explicit := (Prod.mk.inj (Except.ok.inj (hread₁.symm.trans hread))).2
  have hgiven : a.given ≠ [] := by
    intro hnone
    exact houtput (by simp [Options.ofArguments, Options.valuesOf, hnone])
  cases htokens : tokensOf all arguments with
  | error e =>
    rw [read, htokens] at ha
    cases ha
  | ok tokens =>
    have hknown := (reads_of_read htokens ha).2 hleft
    rw [read, htokens] at ha
    obtain ⟨before, after, rfl, hend, hinsert⟩ := exists_readFrom_insert hknown ha hgiven
    obtain ⟨rest, rfl, hrest, hany⟩ := tokensOf_append htokens (dashes_not_mem htokens hend)
    refine ⟨before.map (·.1), rest, rfl, ?_⟩
    have htokens' : tokensOf all (before.map (·.1) ++ redirection :: rest) = _ :=
      hany _ _ ((tokensOf_cons (by decide)).2 ⟨_, after, tokenOf_redirection, hrest, rfl⟩)
    have hread' : read all (before.map (·.1) ++ redirection :: rest) =
        .ok { a with given := a.given ++ [⟨.output, Options.standardOutput⟩] } := by
      have hlength : (before ++ (redirection, Token.known ⟨.output, "--output", some "-"⟩) ::
          after).length = (before ++ after).length + 1 := by
        simp only [List.length_append, List.length_cons]
        omega
      rw [read, htokens']
      show readFrom all (_ + 1) none _ = _
      rw [hlength]
      exact hinsert _ _ _ optionAt_redirection
    obtain ⟨explicit', hexplicit', hsame⟩ := Options.exists_read hread' hleft
    refine ⟨explicit', by rw [hexplicit', ofArguments_redirection], fun f name hname => ?_⟩
    have hf : f ≠ .output := by
      rintro rfl
      cases hname
    have hnames : Options.NamesRoot (before.map (·.1) ++ redirection :: rest) ↔
        Options.NamesRoot (before.map (·.1) ++ rest) := by
      have hinserted : Names (before ++ (redirection, Token.known ⟨.output, "--output", some "-"⟩) ::
          after) .root ↔ Names (before ++ after) .root := by
        refine names_insert fun s hs => ?_
        obtain rfl := Token.known.inj hs
        decide
      simp only [Options.NamesRoot, htokens, htokens', Except.ok.injEq, exists_eq_left',
        hinserted]
    rw [hsame f name hname, hexplicit f name hname, hnames]
    simp [Options.isGiven, hf.symm]

end CommandLine
end ResourceFinder
