import Scriptlet.Proofs.Grammar.Following

namespace Scriptlet

/-!
# Reading that fails promptly

Reading fails promptly if it is refused at the first token that the tokens before it
do not allow: whatever stands behind that token, it is refused there with the same
fault, and the tokens before it begin what is read.  Promptness is passed on from the
parts of a reading to the whole.  This needs that the first part is read alike if what
follows it starts alike; so for every part it is said how much of what follows counts.
-/

/-- The kind of the next token, which may be the end-of-input token. -/
theorem kind_headD
    {stop : Token}
    (isStop : stop.kind = .endOfInput)
    (tokens : List Token) :
    (tokens.headD stop).kind = nextKind tokens := by
  cases tokens with
  | nil => exact isStop
  | cons token rest => rfl

theorem nextKind_append_of_eq
    {rest other : List Token}
    (same : nextKind other = nextKind rest)
    (used : List Token) :
    nextKind (used ++ other) = nextKind (used ++ rest) := by
  cases used with
  | nil => exact same
  | cons token used => rfl

theorem StartsAlike.append_of_eq
    {used rest other : List Token}
    (same : nextKind other = nextKind rest)
    (someUsed : nextKind (used ++ rest) = .newline → used ≠ []) :
    StartsAlike (used ++ rest) (used ++ other) := by
  refine ⟨nextKind_append_of_eq same used, fun isBreak => ?_⟩
  cases used with
  | nil => exact (someUsed isBreak rfl).elim
  | cons token used => exact nextKind_append_of_eq same used

namespace Parser

variable {α β : Type}

/-! ## Outcomes -/

/-- Reading comes to an outcome as soon as it is allowed enough steps. -/
def Settles
    (read : Nat → Parser α)
    (stop : Token)
    (tokens : List Token)
    (outcome : Parsed α) :
    Prop :=
  ∃ enough, ∀ fuel, enough ≤ fuel → read fuel stop tokens = outcome

namespace Settles

variable
  {read body : Nat → Parser α}
  {stop : Token}
  {tokens rest : List Token}
  {outcome other : Parsed α}

theorem unique
    (settles : Settles read stop tokens outcome)
    (settlesOther : Settles read stop tokens other) :
    outcome = other := by
  obtain ⟨enough, reads⟩ := settles
  obtain ⟨otherEnough, readsOther⟩ := settlesOther
  rw [← reads (max enough otherEnough) (Nat.le_max_left _ _),
    readsOther _ (Nat.le_max_right _ _)]

/-- One step more may also take tokens off the front. -/
theorem afterStep
    (unfolds : ∀ fuel, read (fuel + 1) stop tokens = body fuel stop rest)
    (settles : Settles body stop rest outcome) :
    Settles read stop tokens outcome := by
  obtain ⟨enough, reads⟩ := settles
  refine ⟨enough + 1, fun fuel isEnough => ?_⟩
  obtain ⟨fuel, rfl⟩ := Nat.exists_eq_add_of_le' (Nat.le_of_add_left_le isEnough)
  rw [unfolds]
  exact reads fuel (Nat.le_of_succ_le_succ isEnough)

theorem step
    (unfolds : ∀ fuel, read (fuel + 1) = body fuel)
    (settles : Settles body stop tokens outcome) :
    Settles read stop tokens outcome :=
  settles.afterStep fun fuel => by rw [unfolds]

theorem bind_refused
    {fault : SyntaxFault}
    {token : Token}
    (next : Nat → α → Parser β)
    (settles : Settles read stop tokens (.refused fault token)) :
    Settles (fun fuel => read fuel >>= next fuel) stop tokens
      (.refused fault token) := by
  obtain ⟨enough, reads⟩ := settles
  refine ⟨enough, fun fuel isEnough => ?_⟩
  simp only [bind_apply, reads fuel isEnough, Parsed.refused_andThen]

theorem bind_done
    {next : Nat → α → Parser β}
    {value : α}
    {result : Parsed β}
    (settles : Settles read stop tokens (.done value rest))
    (settlesNext : Settles (fun fuel => next fuel value) stop rest result) :
    Settles (fun fuel => read fuel >>= next fuel) stop tokens result := by
  obtain ⟨enough, reads⟩ := settles
  obtain ⟨enoughNext, readsNext⟩ := settlesNext
  refine ⟨max enough enoughNext, fun fuel isEnough => ?_⟩
  obtain ⟨isEnoughFirst, isEnoughNext⟩ := Nat.max_le.mp isEnough
  simp only [bind_apply, reads fuel isEnoughFirst, Parsed.done_andThen]
  exact readsNext fuel isEnoughNext

end Settles

/-- Reading is refused at a token behind others, whatever follows it. -/
def Refuses
    (read : Nat → Parser α)
    (used : List Token)
    (fault : SyntaxFault)
    (token : Token) :
    Prop :=
  ∀ stop rest, stop.kind = .endOfInput → rest.headD stop = token →
    Settles read stop (used ++ rest) (.refused fault token)

/-- If reading is refused, then at the first token that the tokens before it do not
allow; these open what is read. -/
def Prompt
    (read : Nat → Parser α)
    (Opens : List Token → Prop)
    (fuel : Nat)
    (stop : Token)
    (tokens : List Token) :
    Prop :=
  ∀ fault token, read fuel stop tokens = .refused fault token →
    ∃ used rest, tokens = used ++ rest ∧ rest.headD stop = token ∧ Opens used ∧
      Refuses read used fault token

/-- What reading finds is told by rules, and it is found again if other tokens follow
that are the same for it. -/
structure Reader
    (read : Nat → Parser α)
    (Reads : α → List Token → List Token → Prop)
    (Same : List Token → List Token → Prop) :
    Prop where
  reads : ∀ {fuel stop tokens value rest}, stop.kind = .endOfInput →
    read fuel stop tokens = .done value rest →
    ∃ used, tokens = used ++ rest ∧ Reads value (used ++ rest) rest
  settles : ∀ {stop used value rest other}, stop.kind = .endOfInput →
    Reads value (used ++ rest) rest → Same rest other →
    Settles read stop (used ++ other) (.done value other)

/-- Whether other tokens start with a token of the same kind. -/
def SameKind (rest other : List Token) : Prop :=
  nextKind other = nextKind rest

/-- Whatever reading comes to with some number of steps it comes to with all larger
ones. -/
theorem Settles.of_ne_exhausted
    {read : Nat → Parser α}
    {Reads : α → List Token → List Token → Prop}
    {Same : List Token → List Token → Prop}
    {Opens : List Token → Prop}
    {fuel : Nat}
    {stop : Token}
    {tokens : List Token}
    (isStop : stop.kind = .endOfInput)
    (reader : Reader read Reads Same)
    (reflexive : ∀ rest, Same rest rest)
    (prompt : Prompt read Opens fuel stop tokens)
    (finished : read fuel stop tokens ≠ .exhausted) :
    Settles read stop tokens (read fuel stop tokens) := by
  cases outcome : read fuel stop tokens with
  | exhausted =>
      exact (finished outcome).elim
  | done value rest =>
      obtain ⟨used, rfl, reads⟩ := reader.reads isStop outcome
      exact reader.settles isStop reads (reflexive rest)
  | refused fault token =>
      obtain ⟨used, rest, rfl, isToken, _, refuses⟩ := prompt fault token outcome
      exact refuses stop rest isStop isToken

namespace Prompt

variable
  {read body : Nat → Parser α}
  {Opens Wider : List Token → Prop}
  {fuel : Nat}
  {stop : Token}
  {tokens : List Token}

theorem mono
    (prompt : Prompt read Opens fuel stop tokens)
    (wider : ∀ used rest, tokens = used ++ rest → Opens used → Wider used) :
    Prompt read Wider fuel stop tokens := by
  intro fault token refused
  obtain ⟨used, rest, isTokens, isToken, opens, refuses⟩ :=
    prompt fault token refused
  exact ⟨used, rest, isTokens, isToken, wider used rest isTokens opens, refuses⟩

theorem of_done
    {value : α}
    {rest : List Token}
    (isDone : read fuel stop tokens = .done value rest) :
    Prompt read Opens fuel stop tokens := by
  intro fault token refused
  rw [isDone] at refused
  cases refused

theorem of_exhausted
    (isExhausted : read fuel stop tokens = .exhausted) :
    Prompt read Opens fuel stop tokens := by
  intro fault token refused
  rw [isExhausted] at refused
  cases refused

theorem step
    (unfolds : ∀ fuel, read (fuel + 1) = body fuel)
    (prompt : Prompt body Opens fuel stop tokens) :
    Prompt read Opens (fuel + 1) stop tokens := by
  intro fault token refused
  rw [unfolds] at refused
  obtain ⟨used, rest, isTokens, isToken, opens, refuses⟩ :=
    prompt fault token refused
  exact ⟨used, rest, isTokens, isToken, opens,
    fun other rest isStop isHead => (refuses other rest isStop isHead).step unfolds⟩

/-- Reading that can only be refused at the next token. -/
theorem at_head
    (opens : Opens [])
    (refuses : ∀ fault token, read fuel stop tokens = .refused fault token →
      tokens.headD stop = token ∧ Refuses read [] fault token) :
    Prompt read Opens fuel stop tokens := by
  intro fault token refused
  obtain ⟨isHead, refusesAgain⟩ := refuses fault token refused
  exact ⟨[], tokens, rfl, isHead, opens, refusesAgain⟩

/-- Reading in two stages. -/
theorem bind
    {first : Nat → Parser α}
    {next : Nat → α → Parser β}
    {Reads : α → List Token → List Token → Prop}
    {Same : List Token → List Token → Prop}
    (isStop : stop.kind = .endOfInput)
    (reader : Reader first Reads Same)
    (firstPrompt : Prompt first Opens fuel stop tokens)
    (nextPrompt : ∀ value used later, tokens = used ++ later →
      Reads value (used ++ later) later →
      Prompt (fun fuel => next fuel value)
        (fun more => Opens (used ++ more) ∧
          ∀ rest other, later = more ++ rest → SameKind rest other →
            Same later (more ++ other))
        fuel stop later) :
    Prompt (fun fuel => first fuel >>= next fuel) Opens fuel stop tokens := by
  intro fault token refused
  simp only [bind_apply] at refused
  cases firstRead : first fuel stop tokens with
  | exhausted =>
      rw [firstRead] at refused
      cases refused
  | refused firstFault firstToken =>
      rw [firstRead] at refused
      cases refused
      obtain ⟨used, rest, isTokens, isToken, opens, refuses⟩ :=
        firstPrompt fault token firstRead
      exact ⟨used, rest, isTokens, isToken, opens,
        fun other rest isStop isHead =>
          (refuses other rest isStop isHead).bind_refused next⟩
  | done value later =>
      rw [firstRead, Parsed.done_andThen] at refused
      obtain ⟨used, rfl, reads⟩ := reader.reads isStop firstRead
      obtain ⟨more, rest, rfl, isToken, ⟨opens, same⟩, refuses⟩ :=
        nextPrompt value used later rfl reads fault token refused
      refine ⟨used ++ more, rest, by simp, isToken, opens, ?_⟩
      intro otherStop other isOtherStop isHead
      have sameKind : SameKind rest other := by
        rw [SameKind, ← kind_headD isStop rest, isToken, ← isHead,
          kind_headD isOtherStop]
      rw [List.append_assoc]
      exact (reader.settles isOtherStop reads (same rest other rfl sameKind)).bind_done
        (refuses otherStop other isOtherStop isHead)

/-- A first stage for which only the kind of the next token counts. -/
theorem bind_near
    {first : Nat → Parser α}
    {next : Nat → α → Parser β}
    {Reads : α → List Token → List Token → Prop}
    (isStop : stop.kind = .endOfInput)
    (reader : Reader first Reads SameKind)
    (firstPrompt : Prompt first Opens fuel stop tokens)
    (nextPrompt : ∀ value used later, tokens = used ++ later →
      Reads value (used ++ later) later →
      Prompt (fun fuel => next fuel value) (fun more => Opens (used ++ more)) fuel
        stop later) :
    Prompt (fun fuel => first fuel >>= next fuel) Opens fuel stop tokens := by
  apply bind isStop reader firstPrompt
  intro value used later isTokens reads
  apply (nextPrompt value used later isTokens reads).mono
  rintro more _ _ opens
  refine ⟨opens, ?_⟩
  rintro rest other rfl same
  exact nextKind_append_of_eq same more

/-- A first stage for which also the kind behind a line break counts. -/
theorem bind_far
    {first : Nat → Parser α}
    {next : Nat → α → Parser β}
    {Reads : α → List Token → List Token → Prop}
    (isStop : stop.kind = .endOfInput)
    (reader : Reader first Reads StartsAlike)
    (firstPrompt : Prompt first Opens fuel stop tokens)
    (nextPrompt : ∀ value used later, tokens = used ++ later →
      Reads value (used ++ later) later →
      Prompt (fun fuel => next fuel value)
        (fun more => Opens (used ++ more) ∧
          (nextKind later = .newline → more ≠ []))
        fuel stop later) :
    Prompt (fun fuel => first fuel >>= next fuel) Opens fuel stop tokens := by
  apply bind isStop reader firstPrompt
  intro value used later isTokens reads
  apply (nextPrompt value used later isTokens reads).mono
  rintro more _ _ ⟨opens, someUsed⟩
  refine ⟨opens, ?_⟩
  rintro rest other rfl same
  exact .append_of_eq same someUsed

/-- A last stage that is never refused. -/
theorem map
    {first : Nat → Parser α}
    (prompt : Prompt first Opens fuel stop tokens)
    (result : α → β) :
    Prompt (fun fuel => first fuel >>= fun value => pure (result value)) Opens fuel
      stop tokens := by
  intro fault token refused
  simp only [bind_apply] at refused
  cases firstRead : first fuel stop tokens with
  | done value rest =>
      rw [firstRead] at refused
      cases refused
  | exhausted =>
      rw [firstRead] at refused
      cases refused
  | refused firstFault firstToken =>
      rw [firstRead] at refused
      cases refused
      obtain ⟨used, rest, isTokens, isToken, opens, refuses⟩ :=
        prompt fault token firstRead
      exact ⟨used, rest, isTokens, isToken, opens,
        fun other rest isStop isHead =>
          (refuses other rest isStop isHead).bind_refused _⟩

/-! ## Single tokens -/

theorem advance
    {next : Nat → Token → Parser α}
    {token : Token}
    {rest : List Token}
    (prompt : Prompt (fun fuel => next fuel token) (fun more => Opens (token :: more))
      fuel stop rest) :
    Prompt (fun fuel => Parser.advance >>= next fuel) Opens fuel stop
      (token :: rest) := by
  intro fault found refused
  simp only [bind_apply, advance_apply, Parsed.done_andThen, List.headD_cons,
    List.tail_cons] at refused
  obtain ⟨more, behind, rfl, isToken, opens, refuses⟩ := prompt fault found refused
  exact ⟨token :: more, behind, rfl, isToken, opens, refuses⟩

theorem expect (kind : TokenKind) (opens : Opens []) :
    Prompt (fun _ => Parser.expect kind) Opens fuel stop tokens := by
  apply at_head opens
  intro fault token refused
  simp only [Parser.expect] at refused
  split at refused
  · cases refused
  · next otherKind =>
      cases refused
      refine ⟨rfl, ?_⟩
      intro otherStop other _ isHead
      refine ⟨0, fun fuel _ => ?_⟩
      simp only [Parser.expect, List.nil_append, isHead, otherKind, ↓reduceIte]

end Prompt

theorem reader_peekKind :
    Reader (fun _ => peekKind)
      (fun kind tokens rest => tokens = rest ∧ kind = nextKind rest) SameKind where
  reads := by
    intro fuel stop tokens kind rest isStop found
    rw [peekKind_eq isStop] at found
    obtain ⟨rfl, rfl⟩ := Parsed.done_eq_done found
    exact ⟨[], rfl, rfl, rfl⟩
  settles := by
    rintro stop used kind rest other isStop ⟨isTokens, rfl⟩ same
    obtain rfl := List.append_left_eq_self.mp isTokens
    exact ⟨0, fun fuel _ => same ▸ peekKind_eq isStop other⟩

theorem reader_accept
    {kind : TokenKind}
    (notEnd : kind ≠ .endOfInput) :
    Reader (fun _ => accept kind)
      (fun found tokens rest =>
        (found = true ∧ ∃ token, tokens = token :: rest ∧ token.kind = kind) ∨
          (found = false ∧ tokens = rest ∧ nextKind rest ≠ kind))
      SameKind where
  reads := by
    intro fuel stop tokens found rest isStop accepted
    rcases accept_cases isStop kind notEnd tokens with
      ⟨token, behind, rfl, isKind, isAccepted⟩ | ⟨otherKind, isAccepted⟩
    · rw [isAccepted] at accepted
      obtain ⟨rfl, rfl⟩ := Parsed.done_eq_done accepted
      exact ⟨[token], rfl, .inl ⟨rfl, token, rfl, isKind⟩⟩
    · rw [isAccepted] at accepted
      obtain ⟨rfl, rfl⟩ := Parsed.done_eq_done accepted
      exact ⟨[], rfl, .inr ⟨rfl, rfl, otherKind⟩⟩
  settles := by
    intro stop used found rest other isStop reads same
    rcases reads with ⟨rfl, token, isTokens, isKind⟩ | ⟨rfl, isTokens, otherKind⟩
    · obtain rfl : used = [token] := List.append_cancel_right isTokens
      exact ⟨0, fun fuel _ => accept_cons isKind other⟩
    · obtain rfl := List.append_left_eq_self.mp isTokens
      exact ⟨0, fun fuel _ => accept_of_ne isStop (same ▸ otherKind)⟩

theorem reader_expect
    {kind : TokenKind}
    (notEnd : kind ≠ .endOfInput) :
    Reader (fun _ => expect kind)
      (fun token tokens rest => tokens = token :: rest ∧ token.kind = kind)
      SameKind where
  reads := by
    intro fuel stop tokens token rest isStop expected
    obtain ⟨rfl, isKind⟩ := cons_of_expect isStop notEnd expected
    exact ⟨[token], rfl, rfl, isKind⟩
  settles := by
    rintro stop used token rest other _ ⟨isTokens, isKind⟩ _
    obtain rfl : used = [token] := List.append_cancel_right isTokens
    exact ⟨0, fun fuel _ => expect_cons isKind other⟩

namespace Prompt

variable
  {Opens : List Token → Prop}
  {fuel : Nat}
  {stop : Token}
  {tokens : List Token}
  (isStop : stop.kind = .endOfInput)

include isStop

/-- Reading that depends on the kind of the next token. -/
theorem peekKind
    {next : Nat → TokenKind → Parser α}
    (prompt : Prompt (fun fuel => next fuel (nextKind tokens)) Opens fuel stop
      tokens) :
    Prompt (fun fuel => Parser.peekKind >>= next fuel) Opens fuel stop tokens := by
  apply bind_near isStop reader_peekKind (of_done (peekKind_eq isStop tokens))
  rintro kind used later rfl ⟨isTokens, rfl⟩
  obtain rfl := List.append_left_eq_self.mp isTokens
  exact prompt

/-- Reading that goes on behind a token of a kind. -/
theorem expect_bind
    {kind : TokenKind}
    {next : Nat → Token → Parser α}
    (notEnd : kind ≠ .endOfInput)
    (opens : Opens [])
    (nextPrompt : ∀ token rest, tokens = token :: rest → token.kind = kind →
      Prompt (fun fuel => next fuel token) (fun more => Opens (token :: more)) fuel
        stop rest) :
    Prompt (fun fuel => Parser.expect kind >>= next fuel) Opens fuel stop tokens := by
  apply bind_near isStop (reader_expect notEnd) (.expect kind opens)
  rintro token used later rfl ⟨isTokens, isKind⟩
  obtain rfl : used = [token] := List.append_cancel_right isTokens
  exact nextPrompt token later rfl isKind

/-- Reading that goes on in one way behind a token of a kind, and in another way in
front of all others. -/
theorem accept_bind
    {kind : TokenKind}
    {next : Nat → Bool → Parser α}
    (notEnd : kind ≠ .endOfInput)
    (accepted : ∀ token rest, tokens = token :: rest → token.kind = kind →
      Prompt (fun fuel => next fuel true) (fun more => Opens (token :: more)) fuel
        stop rest)
    (otherwise : nextKind tokens ≠ kind →
      Prompt (fun fuel => next fuel false) Opens fuel stop tokens) :
    Prompt (fun fuel => Parser.accept kind >>= next fuel) Opens fuel stop tokens := by
  have neverRefused : Prompt (fun _ => Parser.accept kind) Opens fuel stop tokens := by
    rcases accept_cases isStop kind notEnd tokens with
      ⟨_, _, _, _, isAccepted⟩ | ⟨_, isAccepted⟩
    · exact of_done isAccepted
    · exact of_done isAccepted
  apply bind_near isStop (reader_accept notEnd) neverRefused
  intro found used later isTokens reads
  subst isTokens
  rcases reads with ⟨rfl, token, isTokens, isKind⟩ | ⟨rfl, isTokens, otherKind⟩
  · obtain rfl : used = [token] := List.append_cancel_right isTokens
    exact accepted token later rfl isKind
  · obtain rfl := List.append_left_eq_self.mp isTokens
    exact otherwise otherKind

end Prompt

/-! ## Line breaks -/

theorem reader_skipNewlines :
    Reader (fun _ => skipNewlines) (fun _ tokens rest => skipBreaks tokens = rest)
      SameKind where
  reads := by
    intro fuel stop tokens _ rest _ found
    rw [skipNewlines_eq] at found
    obtain ⟨_, rfl⟩ := Parsed.done_eq_done found
    obtain ⟨breaks, isTokens, _⟩ := exists_of_skipBreaks tokens
    exact ⟨breaks, isTokens, by rw [← isTokens]⟩
  settles := by
    intro stop used _ rest other _ skipped same
    obtain ⟨breaks, isTokens, behindBreaks⟩ := exists_of_skipBreaks (used ++ rest)
    have notBreak := nextKind_skipBreaks_ne (used ++ rest)
    rw [skipped] at isTokens notBreak
    obtain rfl := List.append_cancel_right isTokens
    refine ⟨0, fun fuel _ => (skipNewlines_eq stop (used ++ other)).trans ?_⟩
    rw [behindBreaks other (same ▸ notBreak)]

/-- A line break is skipped alike in front of tokens that start alike. -/
theorem skipBranchBreak_append
    {used rest other : List Token}
    (skipped : skipBranchBreak (used ++ rest) = rest)
    (alike : StartsAlike rest other) :
    skipBranchBreak (used ++ other) = other := by
  obtain ⟨same, sameBehind⟩ := alike
  rw [skipBranchBreak_eq_ite] at skipped ⊢
  split at skipped
  · next atBranch =>
      cases used with
      | nil =>
          cases rest with
          | nil => cases atBranch.1
          | cons token later => exact (List.cons_ne_self token later skipped.symm).elim
      | cons token used =>
          obtain rfl := List.append_left_eq_self.mp skipped
          rw [if_pos]
          · rfl
          · exact ⟨atBranch.1, same.symm ▸ atBranch.2⟩
  · next notBranch =>
      obtain rfl := List.append_left_eq_self.mp skipped
      rw [List.nil_append, if_neg]
      rintro ⟨isBreak, isBranch⟩
      rw [same] at isBreak
      rw [sameBehind isBreak] at isBranch
      exact notBranch ⟨isBreak, isBranch⟩

theorem reader_skipNewlineBeforeBranch :
    Reader (fun _ => skipNewlineBeforeBranch)
      (fun _ tokens rest => skipBranchBreak tokens = rest) StartsAlike where
  reads := by
    intro fuel stop tokens _ rest _ found
    rw [skipNewlineBeforeBranch_eq] at found
    obtain ⟨_, rfl⟩ := Parsed.done_eq_done found
    obtain ⟨used, isTokens⟩ := skipBranchBreak_suffix tokens
    exact ⟨used, isTokens.symm, by rw [isTokens]⟩
  settles := by
    intro stop used _ rest other _ skipped alike
    refine ⟨0, fun fuel _ =>
      (skipNewlineBeforeBranch_eq stop (used ++ other)).trans ?_⟩
    rw [skipBranchBreak_append skipped alike]

end Parser

end Scriptlet
