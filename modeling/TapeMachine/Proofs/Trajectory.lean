import TapeMachine.Machine.Run

/-!
Runs as sequences of states. The log of a run never decides where the run goes, so a run is a walk
along `next?` that ends at the first state where `halt?` answers (`run_iff_ends`). What a completed
instruction can do to the position and to the open loops is said once, in `Move`.
-/
namespace TapeMachine.Machine

variable {settings : Settings} {code : Code} {s s' t u : State} {stop : Option Stop} {m n : Nat}

/-- The state after the current word, if that word can be completed. -/
def next? (settings : Settings) (code : Code) (s : State) : Option State :=
  match advance settings code s #[] with
  | .inl _ => none
  | .inr (s', _) => some s'

/-- How a run ends at a state: why it stops early, if it does, and the state it leaves. -/
def halt? (settings : Settings) (code : Code) (s : State) : Option (Option Stop × State) :=
  match advance settings code s #[] with
  | .inl o => some (o.stop, o.state)
  | .inr _ => none

/-- The log is only written to: with any log, a run goes on to the same state or ends alike. -/
theorem advance_cases (settings : Settings) (code : Code) (s : State) (log : Array LogEntry) :
    (∃ s' log', next? settings code s = some s' ∧ halt? settings code s = none ∧
      advance settings code s log = .inr (s', log')) ∨
    (∃ o, next? settings code s = none ∧ halt? settings code s = some (o.stop, o.state) ∧
      advance settings code s log = .inl o) := by
  unfold next? halt? advance
  cases code[s.ip]? with
  | none => simp
  | some w =>
    cases w with
    | foreign w => cases settings.trace <;> simp [logged, step]
    | op i =>
      simp only [logged]
      cases step settings.strictLoops code s (.op i) <;> simp

theorem next?_op {i : Instruction} (h : code[s.ip]? = some (.op i)) :
    next? settings code s = (execute settings.strictLoops code s i).toOption.map State.advance := by
  simp only [next?, advance, h, logged, step]
  cases execute settings.strictLoops code s i <;> rfl

/-- A run goes on exactly if the current word is an instruction that can be completed. -/
theorem next?_eq_some_iff :
    next? settings code s = some s' ↔
      ∃ i u, code[s.ip]? = some (.op i) ∧ execute settings.strictLoops code s i = .ok u ∧
        s' = u.advance := by
  cases hw : code[s.ip]? with
  | none => simp [next?, advance, hw]
  | some w =>
    cases w with
    | foreign w => cases ht : settings.trace <;> simp [next?, advance, hw, logged, step, ht]
    | op i =>
      rw [next?_op hw]
      cases he : execute settings.strictLoops code s i with
      | error f => simp [Except.toOption, he]
      | ok u => simp [Except.toOption, he, eq_comm]

theorem halt?_op_error {i : Instruction} {f : Failure} (h : code[s.ip]? = some (.op i))
    (hf : execute settings.strictLoops code s i = .error f) :
    halt? settings code s = some (some f.stop, f.state) := by
  simp [halt?, advance, h, logged, step, hf, Except.map]

theorem halt?_end (h : code[s.ip]? = none) : halt? settings code s = some (none, s) := by
  simp [halt?, advance, h]

/-- A run ends at the end of the code, at a word that is no instruction, or at a failure. -/
theorem halt?_cases (h : halt? settings code s = some (stop, t)) :
    (code[s.ip]? = none ∧ stop = none ∧ t = s) ∨
    (∃ w, code[s.ip]? = some (.foreign w) ∧ t = s ∧
      (stop = some (.unhandled w) ∨ stop = some (.unnamed w))) ∨
    (∃ i f, code[s.ip]? = some (.op i) ∧ execute settings.strictLoops code s i = .error f ∧
      stop = some f.stop ∧ t = f.state) := by
  revert h
  unfold halt? advance
  cases hc : code[s.ip]? with
  | none => simp [eq_comm]
  | some w =>
    cases w with
    | foreign w => cases settings.trace <;> simp +contextual [logged, step, eq_comm]
    | op i =>
      simp only [logged, step]
      cases he : execute settings.strictLoops code s i with
      | ok u => simp [Except.map]
      | error f =>
        intro h
        cases Option.some.inj h
        exact .inr (.inr ⟨i, f, rfl, he, rfl, rfl⟩)

theorem next?_eq_none_of_halt? {p : Option Stop × State} (h : halt? settings code s = some p) :
    next? settings code s = none := by
  obtain ⟨s', log', -, hn, -⟩ | ⟨o, hn, -, -⟩ := advance_cases settings code s #[]
  · rw [hn] at h
    cases h
  · exact hn

/-- The state after `n` completed words. -/
def after (settings : Settings) (code : Code) : Nat → State → Option State
  | 0, s => some s
  | n + 1, s => (next? settings code s).bind (after settings code n)

@[simp] theorem after_zero (s : State) : after settings code 0 s = some s := rfl
@[simp] theorem after_succ (n : Nat) (s : State) :
    after settings code (n + 1) s = (next? settings code s).bind (after settings code n) := rfl

theorem after_add (m n : Nat) (s : State) :
    after settings code (m + n) s = (after settings code m s).bind (after settings code n) := by
  induction m generalizing s with
  | zero => simp
  | succ m ih =>
    rw [Nat.succ_add, after_succ, after_succ]
    cases next? settings code s with
    | none => rfl
    | some s' => exact ih s'

theorem after_join (h : after settings code m s = some t) (h' : after settings code n t = some u) :
    after settings code (m + n) s = some u := by
  rw [after_add, h]
  exact h'

theorem after_one (h : next? settings code s = some t) : after settings code 1 s = some t := by
  simp [h]

/-- What holds at first and is kept by every completed word holds after any number of them. -/
theorem after_invariant {P : State → Prop}
    (hstep : ∀ s s', P s → next? settings code s = some s' → P s') (hs : P s)
    (h : after settings code n s = some t) : P t := by
  induction n generalizing s with
  | zero => exact Option.some.inj h ▸ hs
  | succ n ih =>
    obtain ⟨s', hn, hr⟩ := Option.bind_eq_some_iff.1 h
    exact ih (hstep s s' hs hn) hr

/-- The instructions of the first `n` completed words. -/
def executed (settings : Settings) (code : Code) : Nat → State → List Instruction
  | 0, _ => []
  | n + 1, s =>
    match code[s.ip]?, next? settings code s with
    | some (.op i), some s' => i :: executed settings code n s'
    | _, _ => []

/-- Two runs whose states are related stay so, word for word, if the second run can follow every
completed word of the first. -/
theorem after_related {settings' : Settings} {code' : Code} {R : State → State → Prop}
    (hstep : ∀ s t s', R s t → next? settings code s = some s' →
      ∃ t', next? settings' code' t = some t' ∧ R s' t')
    (hR : R s t) (h : after settings code n s = some s') :
    ∃ t', after settings' code' n t = some t' ∧ R s' t' := by
  induction n generalizing s t with
  | zero => exact ⟨t, rfl, Option.some.inj h ▸ hR⟩
  | succ n ih =>
    obtain ⟨r, hn, hr⟩ := Option.bind_eq_some_iff.1 h
    obtain ⟨r', hn', hR'⟩ := hstep s t r hR hn
    obtain ⟨t', ht', hR''⟩ := ih hR' hr
    exact ⟨t', by simp [hn', ht'], hR''⟩

/-- After `n` completed words the run ends, in the given way. -/
def Ends (settings : Settings) (code : Code) (n : Nat) (s : State) (stop : Option Stop) (t : State) :
    Prop :=
  ∃ u, after settings code n s = some u ∧ halt? settings code u = some (stop, t)

@[simp] theorem ends_zero_iff :
    Ends settings code 0 s stop t ↔ halt? settings code s = some (stop, t) := by
  simp [Ends]

@[simp] theorem ends_succ_iff :
    Ends settings code (n + 1) s stop t ↔
      ∃ s', next? settings code s = some s' ∧ Ends settings code n s' stop t := by
  constructor
  · rintro ⟨u, hu, hh⟩
    obtain ⟨s', hn, hr⟩ := Option.bind_eq_some_iff.1 hu
    exact ⟨s', hn, u, hr, hh⟩
  · rintro ⟨s', hn, u, hr, hh⟩
    exact ⟨u, by simp [hn, hr], hh⟩

theorem Ends.of_after (h : after settings code m s = some u) (h' : Ends settings code n u stop t) :
    Ends settings code (m + n) s stop t := by
  obtain ⟨v, hv, hh⟩ := h'
  exact ⟨v, after_join h hv, hh⟩

/-- A run that can go on ends only after it has gone on. -/
theorem Ends.of_next? (h : Ends settings code n s stop t) (hn : next? settings code s = some s') :
    ∃ k, n = k + 1 ∧ Ends settings code k s' stop t := by
  cases n with
  | zero =>
    rw [next?_eq_none_of_halt? (ends_zero_iff.1 h)] at hn
    cases hn
  | succ k =>
    obtain ⟨r, hr, he⟩ := ends_succ_iff.1 h
    rw [hn] at hr
    exact ⟨k, rfl, Option.some.inj hr ▸ he⟩

/-- A run ends at the first state that does not go on. -/
theorem Ends.of_halt? {p : Option Stop × State} (h : Ends settings code n s stop t)
    (hp : halt? settings code s = some p) : n = 0 ∧ p = (stop, t) := by
  cases n with
  | zero => exact ⟨rfl, Option.some.inj (hp.symm.trans (ends_zero_iff.1 h))⟩
  | succ k =>
    obtain ⟨r, hr, -⟩ := ends_succ_iff.1 h
    rw [next?_eq_none_of_halt? hp] at hr
    cases hr

/-- How a run ends, and after how many words, is decided by where it begins. -/
theorem Ends.unique {stop' : Option Stop} {t' : State} (h : Ends settings code m s stop t)
    (h' : Ends settings code n s stop' t') : m = n ∧ (stop, t) = (stop', t') := by
  induction m generalizing s n with
  | zero =>
    obtain ⟨rfl, he⟩ := h'.of_halt? (ends_zero_iff.1 h)
    exact ⟨rfl, he⟩
  | succ m ih =>
    obtain ⟨s', hn, hs'⟩ := ends_succ_iff.1 h
    obtain ⟨k, rfl, hk⟩ := h'.of_next? hn
    obtain ⟨rfl, he⟩ := ih hs' hk
    exact ⟨rfl, he⟩

/-- A run has an outcome if its fuel lasts for the words it completes and for one more look. -/
theorem run_iff_ends (fuel : Nat) (s : State) (log : Array LogEntry) :
    (∃ o, run settings code fuel s log = some o ∧ o.stop = stop ∧ o.state = t) ↔
      ∃ n, n < fuel ∧ Ends settings code n s stop t := by
  induction fuel generalizing s log with
  | zero => simp [run]
  | succ fuel ih =>
    unfold run
    obtain ⟨s', log', hn, -, ha⟩ | ⟨o, -, hh, ha⟩ := advance_cases settings code s log
    · simp only [ha, ih s' log']
      constructor
      · rintro ⟨n, hlt, he⟩
        exact ⟨n + 1, by omega, ends_succ_iff.2 ⟨s', hn, he⟩⟩
      · rintro ⟨n, hlt, he⟩
        obtain ⟨k, rfl, he'⟩ := he.of_next? hn
        exact ⟨k, by omega, he'⟩
    · simp only [ha, Option.some.injEq, exists_eq_left']
      constructor
      · rintro ⟨rfl, rfl⟩
        exact ⟨0, by omega, ends_zero_iff.2 hh⟩
      · rintro ⟨n, -, he⟩
        simpa using (he.of_halt? hh).2

/-- With enough fuel a run has every outcome it can come to. -/
theorem exists_run_iff_ends (s : State) (log : Array LogEntry) :
    (∃ fuel o, run settings code fuel s log = some o ∧ o.stop = stop ∧ o.state = t) ↔
      ∃ n, Ends settings code n s stop t := by
  constructor
  · rintro ⟨fuel, h⟩
    obtain ⟨n, -, he⟩ := (run_iff_ends fuel s log).1 h
    exact ⟨n, he⟩
  · rintro ⟨n, he⟩
    exact ⟨n + 1, (run_iff_ends (n + 1) s log).2 ⟨n, by omega, he⟩⟩

theorem ends_of_run {fuel : Nat} {log : Array LogEntry} {o : Outcome}
    (h : run settings code fuel s log = some o) : ∃ n, Ends settings code n s o.stop o.state :=
  (exists_run_iff_ends s log).1 ⟨fuel, o, h, rfl, rfl⟩

/-- The last entry in the log of a run that reached the end of its code. -/
theorem log_of_run {fuel : Nat} {log : Array LogEntry} {o : Outcome}
    (h : run settings code fuel s log = some o) (ho : o.stop = none) :
    ∃ before : Array LogEntry, o.log = before.push (LogEntry.ofEnd o.state) := by
  induction fuel generalizing s log with
  | zero => simp [run] at h
  | succ fuel ih =>
    unfold run advance at h
    split at h
    next o' ha =>
      cases Option.some.inj h
      split at ha
      · cases Sum.inl.inj ha
        exact ⟨log, rfl⟩
      · split at ha
        · cases Sum.inl.inj ha
          cases ho
        · split at ha <;> cases ha
          cases ho
    next s' log' ha => exact ih h

/-- What a completed instruction can do. Only brackets move anywhere but to the next word, and only
they open or close a loop. -/
inductive Move (strict : Bool) (code : Code) (s : State) : State → Prop where
  | plain (i : Instruction) (u : State) (fetch : code[s.ip]? = some (.op i))
      (not_open : i ≠ .loopOpen) (not_close : i ≠ .loopClose)
      (done : execute strict code s i = .ok u) (ip_eq : u.ip = s.ip) (stack_eq : u.stack = s.stack) :
      Move strict code s u.advance
  | enter (fetch : code[s.ip]? = some (.op .loopOpen)) (test : strict = true → s.cell ≠ 0) :
      Move strict code s (State.advance { s with stack := s.ip :: s.stack })
  | skip (close : Nat) (fetch : code[s.ip]? = some (.op .loopOpen)) (mode : strict = true)
      (zero : s.cell = 0) (found : matchingClose code s.ip = some close) :
      Move strict code s (State.advance { s with ip := close })
  | back (top : Nat) (below : List Nat) (fetch : code[s.ip]? = some (.op .loopClose))
      (stack_eq : s.stack = top :: below) (nonzero : s.cell ≠ 0) :
      Move strict code s (State.advance { s with ip := top })
  | leave (top : Nat) (below : List Nat) (fetch : code[s.ip]? = some (.op .loopClose))
      (stack_eq : s.stack = top :: below) (zero : s.cell = 0) :
      Move strict code s (State.advance { s with stack := below })

theorem stored_eq_ok {r : Except Overflow Tape} (h : stored s r = .ok u) :
    ∃ tape, r = .ok tape ∧ u = { s with tape } := by
  cases r with
  | ok tape => exact ⟨tape, rfl, (Except.ok.inj h).symm⟩
  | error o => cases h

/-- What an instruction does when it completes. -/
inductive Effect (strict : Bool) (code : Code) (s : State) : Instruction → State → Prop where
  | add (i : Instruction) (d : Int) (tape : Tape)
      (delta : i = .increment ∧ d = 1 ∨ i = .decrement ∧ d = -1)
      (stored : s.tape.add s.idx d = .ok tape) : Effect strict code s i { s with tape }
  | move (i : Instruction) (d : Int) (delta : i = .moveRight ∧ d = 1 ∨ i = .moveLeft ∧ d = -1) :
      Effect strict code s i { s with idx := s.idx + d }
  | output (c : Char) (valid : scalar? s.cell = some c) :
      Effect strict code s .output { s with output := s.output.push c }
  | store (c : CodePoint) (tape : Tape) (read : s.input.read.1 = .ok (some c))
      (stored : s.tape.put s.idx c.val = .ok tape) :
      Effect strict code s .input { s with input := s.input.read.2, tape }
  | enter (test : strict = true → s.cell ≠ 0) :
      Effect strict code s .loopOpen { s with stack := s.ip :: s.stack }
  | skip (close : Nat) (mode : strict = true) (zero : s.cell = 0)
      (found : matchingClose code s.ip = some close) :
      Effect strict code s .loopOpen { s with ip := close }
  | back (top : Nat) (below : List Nat) (stack_eq : s.stack = top :: below) (nonzero : s.cell ≠ 0) :
      Effect strict code s .loopClose { s with ip := top }
  | leave (top : Nat) (below : List Nat) (stack_eq : s.stack = top :: below) (zero : s.cell = 0) :
      Effect strict code s .loopClose { s with stack := below }

theorem effect_of_execute {strict : Bool} {i : Instruction} (h : execute strict code s i = .ok u) :
    Effect strict code s i u := by
  cases i with
  | increment =>
    obtain ⟨tape, hr, rfl⟩ := stored_eq_ok h
    exact .add _ 1 tape (.inl ⟨rfl, rfl⟩) hr
  | decrement =>
    obtain ⟨tape, hr, rfl⟩ := stored_eq_ok h
    exact .add _ (-1) tape (.inr ⟨rfl, rfl⟩) hr
  | moveRight =>
    cases Except.ok.inj h
    exact .move _ 1 (.inl ⟨rfl, rfl⟩)
  | moveLeft =>
    cases Except.ok.inj h
    exact .move _ (-1) (.inr ⟨rfl, rfl⟩)
  | output =>
    simp only [execute] at h
    split at h <;> cases h
    next c hc => exact .output c hc
  | input =>
    simp only [execute] at h
    split at h
    next c hc =>
      obtain ⟨tape, hr, rfl⟩ := stored_eq_ok h
      exact .store c tape hc hr
    next => cases h
    next => cases h
  | loopOpen =>
    simp only [execute] at h
    split at h
    next ht =>
      simp only [Bool.and_eq_true, beq_iff_eq] at ht
      split at h <;> cases h
      next close hm => exact .skip close ht.1 ht.2 hm
    next ht =>
      cases h
      exact .enter (by simpa using ht)
  | loopClose =>
    simp only [execute] at h
    split at h
    next => cases h
    next top below hs =>
      split at h <;> cases h
      next hz => exact .back top below hs hz
      next hz => exact .leave top below hs (by simpa using hz)

/-- An instruction that is no bracket keeps the position and the open loops. -/
theorem execute_plain {strict : Bool} {i : Instruction} (h : execute strict code s i = .ok u)
    (ho : i ≠ .loopOpen) (hc : i ≠ .loopClose) : u.ip = s.ip ∧ u.stack = s.stack := by
  cases effect_of_execute h with
  | add | move | output | store => exact ⟨rfl, rfl⟩
  | enter | skip => exact absurd rfl ho
  | back | leave => exact absurd rfl hc

/-- An instruction changes neither the format of the cells nor the number of steps. -/
theorem execute_keeps {strict : Bool} {i : Instruction} (h : execute strict code s i = .ok u) :
    u.tape.format = s.tape.format ∧ u.steps = s.steps := by
  cases effect_of_execute h with
  | add i d tape delta stored => exact ⟨Tape.format_put stored, rfl⟩
  | store c tape read stored => exact ⟨Tape.format_put stored, rfl⟩
  | move | output | enter | skip | back | leave => exact ⟨rfl, rfl⟩

/-- Every completed word counts as one step. -/
theorem steps_after (h : after settings code n s = some t) : t.steps = s.steps + n := by
  induction n generalizing s with
  | zero => exact Option.some.inj h ▸ rfl
  | succ n ih =>
    obtain ⟨s', hn, hr⟩ := Option.bind_eq_some_iff.1 h
    obtain ⟨i, u, -, he, rfl⟩ := next?_eq_some_iff.1 hn
    have hu : u.advance.steps = s.steps + 1 := congrArg (· + 1) (execute_keeps he).2
    rw [ih hr, hu]
    omega

theorem format_after (h : after settings code n s = some t) : t.tape.format = s.tape.format := by
  refine after_invariant (P := fun u => u.tape.format = s.tape.format) ?_ rfl h
  intro r r' hr hn
  obtain ⟨i, u, -, he, rfl⟩ := next?_eq_some_iff.1 hn
  exact (execute_keeps he).1.trans hr

theorem move_of_next? (h : next? settings code s = some s') :
    Move settings.strictLoops code s s' := by
  obtain ⟨i, u, hw, he, rfl⟩ := next?_eq_some_iff.1 h
  by_cases hbracket : i = .loopOpen ∨ i = .loopClose
  · cases effect_of_execute he with
    | enter test => exact .enter hw test
    | skip close mode zero found => exact .skip close hw mode zero found
    | back top below stack_eq nonzero => exact .back top below hw stack_eq nonzero
    | leave top below stack_eq zero => exact .leave top below hw stack_eq zero
    | add i d tape delta => obtain ⟨rfl, -⟩ | ⟨rfl, -⟩ := delta <;> simp at hbracket
    | move i d delta => obtain ⟨rfl, -⟩ | ⟨rfl, -⟩ := delta <;> simp at hbracket
    | output | store => simp at hbracket
  · rw [not_or] at hbracket
    obtain ⟨hip, hstack⟩ := execute_plain he hbracket.1 hbracket.2
    exact .plain i u hw hbracket.1 hbracket.2 he hip hstack

/-- How an instruction can fail. Only `,` changes anything then: it has read from the input. -/
inductive Refusal (strict : Bool) (code : Code) (s : State) : Instruction → Failure → Prop where
  | shift (i : Instruction) (d : Int) (o : Overflow)
      (delta : i = .increment ∧ d = 1 ∨ i = .decrement ∧ d = -1)
      (refused : s.tape.add s.idx d = .error o) :
      Refusal strict code s i ⟨.fault (o.fault (some s.ip)), s⟩
  | output (invalid : scalar? s.cell = none) :
      Refusal strict code s .output ⟨.fault (s.fault (.invalidOutput s.cell)), s⟩
  | store (c : CodePoint) (o : Overflow) (read : s.input.read.1 = .ok (some c))
      (refused : s.tape.put s.idx c.val = .error o) :
      Refusal strict code s .input ⟨.fault (o.fault (some s.ip)), { s with input := s.input.read.2 }⟩
  | exhausted (read : s.input.read.1 = .ok none) :
      Refusal strict code s .input ⟨.fault (s.fault .inputExhausted), { s with input := s.input.read.2 }⟩
  | undecodable (e : Utf8.DecodeError) (read : s.input.read.1 = .error e) :
      Refusal strict code s .input ⟨.undecodable e, { s with input := s.input.read.2 }⟩
  | unmatchedOpen (mode : strict = true) (zero : s.cell = 0)
      (missing : matchingClose code s.ip = none) :
      Refusal strict code s .loopOpen ⟨.fault (s.fault .unmatchedOpen), s⟩
  | unmatchedClose (empty : s.stack = []) :
      Refusal strict code s .loopClose ⟨.fault (s.fault .unmatchedClose), s⟩

theorem stored_eq_error {r : Except Overflow Tape} {f : Failure} (h : stored s r = .error f) :
    ∃ o, r = .error o ∧ f = ⟨.fault (o.fault (some s.ip)), s⟩ := by
  cases r with
  | ok tape => cases h
  | error o => exact ⟨o, rfl, (Except.error.inj h).symm⟩

theorem refusal_of_execute {strict : Bool} {i : Instruction} {f : Failure}
    (h : execute strict code s i = .error f) : Refusal strict code s i f := by
  cases i with
  | increment =>
    obtain ⟨o, hr, rfl⟩ := stored_eq_error h
    exact .shift _ 1 o (.inl ⟨rfl, rfl⟩) hr
  | decrement =>
    obtain ⟨o, hr, rfl⟩ := stored_eq_error h
    exact .shift _ (-1) o (.inr ⟨rfl, rfl⟩) hr
  | moveRight | moveLeft => cases h
  | output =>
    simp only [execute] at h
    split at h <;> cases h
    next hs => exact .output hs
  | input =>
    simp only [execute] at h
    split at h
    next c hc =>
      obtain ⟨o, hr, rfl⟩ := stored_eq_error h
      exact .store c o hc hr
    next hc =>
      cases h
      exact .exhausted hc
    next e hc =>
      cases h
      exact .undecodable e hc
  | loopOpen =>
    simp only [execute] at h
    split at h
    next ht =>
      simp only [Bool.and_eq_true, beq_iff_eq] at ht
      split at h <;> cases h
      next hm => exact .unmatchedOpen ht.1 ht.2 hm
    next => cases h
  | loopClose =>
    simp only [execute] at h
    split at h
    next hs =>
      cases h
      exact .unmatchedClose hs
    next => split at h <;> cases h

end TapeMachine.Machine
