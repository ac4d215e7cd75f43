import TapeMachine.Proofs.Structured.Simulation

/-!
Loops with and without strict entry. A balanced program is run as its tree says: loops are `DoWhile`
loops unless their entry is strict (`run_iff_doWhile`), and `While` loops if it is (`run_iff_while`).
Both rest on one observation: a `]` that does not leave its loop for good goes on just as the `[` of the
loop would, so a repetition can be followed as a new entry.
-/
namespace TapeMachine.Machine

variable {settings : Settings} {code : Code} {body rest : Tree} {c c' : Config} {e : Exit}
  {stack : List Nat} {ip pos steps k n : Nat} {stop : Option Stop} {s s₁ s₂ u : State}

/-- Two states that go on to the same state are left alike, if the exit is not where the first is. -/
theorem Leaves.of_same_next? (h : Leaves settings code s₁ ip stack e) (hip : s₁.ip ≠ ip)
    (h₁ : next? settings code s₁ = some s) (h₂ : next? settings code s₂ = some s) :
    Leaves settings code s₂ ip stack e := by
  cases h with
  | done n k reached =>
    cases n with
    | zero =>
      cases Option.some.inj reached
      exact absurd rfl hip
    | succ n => exact .done (n + 1) k (by rwa [after_succ, h₂, ← h₁, ← after_succ])
  | failed n t ended config_eq =>
    obtain ⟨m, rfl, hm⟩ := ended.of_next? h₁
    exact .failed (m + 1) t (ends_succ_iff.2 ⟨s, h₂, hm⟩) config_eq

theorem Ends.of_same_next? (h : Ends settings code n s₁ stop u)
    (h₁ : next? settings code s₁ = some s) (h₂ : next? settings code s₂ = some s) :
    Ends settings code n s₂ stop u := by
  obtain ⟨m, rfl, hm⟩ := h.of_next? h₁
  exact ends_succ_iff.2 ⟨s, h₂, hm⟩

/-- A loop that is entered is left as it is left from its `]`, once its body has been gone through. -/
theorem Leaves.through_body (h : code.Holds pos (Tree.loop body rest).instructions)
    (ht : settings.strictLoops = true → c.cell ≠ 0)
    (hb : Leaves settings code (c.state (pos + 1) (pos :: stack) (steps + 1)) (pos + 1 + body.size)
      (pos :: stack) ⟨none, c'⟩)
    (hl : ∀ k, Leaves settings code (c'.state (pos + body.size + 1) (pos :: stack) k) ip stack e) :
    Leaves settings code (c.state pos stack steps) ip stack e := by
  rw [show pos + 1 + body.size = pos + body.size + 1 by omega] at hb
  cases hb with
  | done m k reached =>
    exact Leaves.of_next? (next?_enter (Code.holds_loop_iff.1 h).1 ht) (Leaves.of_after reached (hl k))

/-- A loop that is entered is left where its body stops early. -/
theorem Leaves.in_body {x : Stop} (h : code.Holds pos (Tree.loop body rest).instructions)
    (ht : settings.strictLoops = true → c.cell ≠ 0)
    (hb : Leaves settings code (c.state (pos + 1) (pos :: stack) (steps + 1)) (pos + 1 + body.size)
      (pos :: stack) ⟨some x, c'⟩) :
    Leaves settings code (c.state pos stack steps) ip stack ⟨some x, c'⟩ := by
  apply Leaves.of_next? (next?_enter (Code.holds_loop_iff.1 h).1 ht)
  cases hb with
  | failed m t ended config_eq => exact .failed m t ended config_eq

/-- A run that ends after it has entered a loop ends in the body or comes to the `]`. -/
theorem Ends.into_body {Sem : Tree → Nat → Config → Exit → Prop}
    (h : code.Holds pos (Tree.loop body rest).instructions)
    (ht : settings.strictLoops = true → c.cell ≠ 0)
    (ih : ∀ {pos c stack steps n stop u}, code.Holds pos body.instructions →
      Ends settings code n (c.state pos stack steps) stop u →
      Passes settings code n (pos + body.size) stack stop u (Sem body pos c))
    (he : Ends settings code n (c.state pos stack steps) stop u) :
    ∃ m, m < n ∧
      Passes settings code m (pos + body.size + 1) (pos :: stack) stop u (Sem body (pos + 1) c) := by
  obtain ⟨ho, hb, -, -⟩ := Code.holds_loop_iff.1 h
  obtain ⟨m, rfl, hm⟩ := he.of_next? (next?_enter ho ht)
  refine ⟨m, by omega, ?_⟩
  have := ih hb hm
  rwa [show pos + 1 + body.size = pos + body.size + 1 by omega] at this

/-- What follows a loop ends where the loop and what follows it end. -/
theorem loop_end (pos : Nat) (body rest : Tree) :
    pos + body.size + 2 + rest.size = pos + (Tree.loop body rest).size := by
  rw [Tree.size_loop]
  omega

theorem ip_ne_loop_end (c : Config) (pos : Nat) (stack : List Nat) (k : Nat) (body rest : Tree) :
    (c.state pos stack k).ip ≠ pos + (Tree.loop body rest).size := by
  simp only [Config.state, Tree.size_loop]
  omega

/-- On a cell that is not zero, a `]` goes on as the `[` would: into the body again. -/
theorem next?_again (h : code.Holds pos (Tree.loop body rest).instructions) (hz : c.cell ≠ 0)
    (stack : List Nat) (k : Nat) :
    ∃ s, next? settings code (c.state pos stack k) = some s ∧
      next? settings code (c.state (pos + body.size + 1) (pos :: stack) k) = some s := by
  obtain ⟨ho, -, hc, -⟩ := Code.holds_loop_iff.1 h
  exact ⟨_, next?_enter ho fun _ => hz, next?_back hc hz⟩

section DoWhile

variable (hs : settings.strictLoops = false)
include hs

theorem doWhile_leaves {t : Tree} (h : DoWhile t pos c e) (stack : List Nat) (steps : Nat)
    (hp : code.Holds pos t.instructions) :
    Leaves settings code (c.state pos stack steps) (pos + t.size) stack e := by
  -- Loops are always entered here.
  have ht : ∀ c : Config, settings.strictLoops = true → c.cell ≠ 0 := by simp [hs]
  induction h generalizing stack steps with
  | done => exact .done 0 steps rfl
  | simple exec next ih => exact .of_simple hp exec (ih stack (steps + 1) hp.2)
  | simpleFails exec => exact .failed 0 _ (ends_zero_iff.2 (halt?_simple hp.1 exec)) rfl
  | bodyFails once ihb =>
    exact .in_body hp (ht _) (ihb _ _ (Code.holds_loop_iff.1 hp).2.1)
  | @again body rest pos c c' e once nonzero more ihb ihm =>
    refine .through_body hp (ht _) (ihb _ _ (Code.holds_loop_iff.1 hp).2.1) fun k => ?_
    obtain ⟨s, h₁, h₂⟩ := next?_again hp nonzero stack k
    exact (ihm stack k hp).of_same_next? (ip_ne_loop_end c' pos stack k body rest) h₁ h₂
  | @leave body rest pos c c' e once zero next ihb ihn =>
    obtain ⟨-, hb, hc, hr⟩ := Code.holds_loop_iff.1 hp
    refine .through_body hp (ht _) (ihb _ _ hb) fun k => ?_
    have hn := ihn stack (k + 1) hr
    rw [loop_end] at hn
    exact hn.of_next? (next?_leave hc zero)

theorem doWhile_passes (t : Tree) (hp : code.Holds pos t.instructions)
    (he : Ends settings code n (c.state pos stack steps) stop u) :
    Passes settings code n (pos + t.size) stack stop u (DoWhile t pos c) := by
  have ht : ∀ c : Config, settings.strictLoops = true → c.cell ≠ 0 := by simp [hs]
  induction t generalizing pos c stack steps n stop u with
  | done => exact .through c n steps .done (Nat.le_refl n) he
  | simple i rest ih => exact .of_simple hp he .simple .simpleFails (ih hp.2)
  | loop body rest ihb ihr =>
    -- Each time round the loop takes a step at least, so the number of steps left goes down.
    induction n using Nat.strongRecOn generalizing c steps with
    | ind n ih =>
      obtain ⟨-, -, hc, hr⟩ := Code.holds_loop_iff.1 hp
      obtain ⟨m, hmn, hm⟩ := Ends.into_body hp (ht c) ihb he
      cases hm with
      | inside x stop_eq exit => exact .inside x stop_eq (.bodyFails exit)
      | through c' j k exit le ended =>
        by_cases hz : c'.cell = 0
        · obtain ⟨i, rfl, hi⟩ := ended.of_next? (next?_leave hc hz)
          have hrest := ihr hr hi
          rw [loop_end] at hrest
          exact hrest.imp (by omega) fun _ => .leave exit hz
        · obtain ⟨s, h₁, h₂⟩ := next?_again hp hz stack k
          exact (ih j (by omega) (ended.of_same_next? h₂ h₁)).imp (by omega) fun _ => .again exit hz

end DoWhile

section While

variable (hs : settings.strictLoops = true)
include hs

/-- With strict entry, a `]` goes on as the `[` would also where the cell is zero: past the loop. -/
theorem next?_test (h : code.Holds pos (Tree.loop body rest).instructions) (c : Config)
    (stack : List Nat) (k : Nat) :
    ∃ s, next? settings code (c.state pos stack k) = some s ∧
      next? settings code (c.state (pos + body.size + 1) (pos :: stack) k) = some s := by
  by_cases hz : c.cell = 0
  · obtain ⟨-, -, hc, -⟩ := Code.holds_loop_iff.1 h
    exact ⟨_, next?_skip (Code.matched_of_holds h) hs hz, next?_leave hc hz⟩
  · exact next?_again h hz stack k

theorem while_leaves {t : Tree} (h : While t pos c e) (stack : List Nat) (steps : Nat)
    (hp : code.Holds pos t.instructions) :
    Leaves settings code (c.state pos stack steps) (pos + t.size) stack e := by
  induction h generalizing stack steps with
  | done => exact .done 0 steps rfl
  | simple exec next ih => exact .of_simple hp exec (ih stack (steps + 1) hp.2)
  | simpleFails exec => exact .failed 0 _ (ends_zero_iff.2 (halt?_simple hp.1 exec)) rfl
  | @leave body rest pos c e zero next ihn =>
    have hn := ihn stack (steps + 1) (Code.holds_loop_iff.1 hp).2.2.2
    rw [loop_end] at hn
    exact hn.of_next? (next?_skip (Code.matched_of_holds hp) hs zero)
  | bodyFails nonzero once ihb =>
    exact .in_body hp (fun _ => nonzero) (ihb _ _ (Code.holds_loop_iff.1 hp).2.1)
  | @again body rest pos c c' e nonzero once more ihb ihm =>
    refine .through_body hp (fun _ => nonzero) (ihb _ _ (Code.holds_loop_iff.1 hp).2.1) fun k => ?_
    obtain ⟨s, h₁, h₂⟩ := next?_test hs hp c' stack k
    exact (ihm stack k hp).of_same_next? (ip_ne_loop_end c' pos stack k body rest) h₁ h₂

theorem while_passes (t : Tree) (hp : code.Holds pos t.instructions)
    (he : Ends settings code n (c.state pos stack steps) stop u) :
    Passes settings code n (pos + t.size) stack stop u (While t pos c) := by
  induction t generalizing pos c stack steps n stop u with
  | done => exact .through c n steps .done (Nat.le_refl n) he
  | simple i rest ih => exact .of_simple hp he .simple .simpleFails (ih hp.2)
  | loop body rest ihb ihr =>
    induction n using Nat.strongRecOn generalizing c steps with
    | ind n ih =>
      by_cases hz : c.cell = 0
      · obtain ⟨m, rfl, hm⟩ := he.of_next? (next?_skip (Code.matched_of_holds hp) hs hz)
        have hrest := ihr (Code.holds_loop_iff.1 hp).2.2.2 hm
        rw [loop_end] at hrest
        exact hrest.imp (by omega) fun _ => .leave hz
      · obtain ⟨m, hmn, hm⟩ := Ends.into_body hp (fun _ => hz) ihb he
        cases hm with
        | inside x stop_eq exit => exact .inside x stop_eq (.bodyFails hz exit)
        | through c' j k exit le ended =>
          obtain ⟨s, h₁, h₂⟩ := next?_test hs hp c' stack k
          exact (ih j (by omega) (ended.of_same_next? h₂ h₁)).imp (by omega) fun _ => .again hz exit

end While

/-- The tree of a balanced program. -/
theorem exists_unique_tree {p : Program} (hp : p.Balanced) :
    ∃ t : Tree, t.instructions = p.instructions.toList ∧
      ∀ t' : Tree, t'.instructions = p.instructions.toList ↔ t' = t := by
  obtain ⟨t, ht⟩ := hp.exists_tree
  refine ⟨t, ht, fun t' => ⟨?_, ?_⟩⟩
  · exact fun h => Tree.instructions_injective (h.trans ht.symm)
  · rintro rfl
    exact ht

/-- Unless loop entry is strict, a balanced program runs as the one tree it is the text of, with loops
that run their body once and then while the cell is not zero: with the same outcomes, and without end
if the tree has no exit. -/
theorem run_iff_doWhile (p : Program) (hp : p.Balanced) :
    ∃ t : Tree, (∀ t' : Tree, t'.instructions = p.instructions.toList ↔ t' = t) ∧
      ∀ (settings : Settings) (c : Config) (log : Array LogEntry), settings.strictLoops = false →
        (∀ e : Exit, (∃ fuel o, run settings p.code fuel (c.state 0 [] 0) log = some o ∧
          o.stop = e.stop ∧ o.state.config = e.config) ↔ DoWhile t 0 c e) ∧
        ((∀ fuel, run settings p.code fuel (c.state 0 [] 0) log = none) ↔
          ∀ e, ¬ DoWhile t 0 c e) := by
  obtain ⟨t, ht, hu⟩ := exists_unique_tree hp
  refine ⟨t, hu, fun settings c log hs => ?_⟩
  have hsim : Simulates settings p.code DoWhile :=
    ⟨fun h stack steps => doWhile_leaves hs h stack steps, fun t => doWhile_passes hs t⟩
  exact hsim.run_iff ht c log

/-- A loop in a loop, `[>[>]]`. -/
def nestedMoves : Program :=
  ⟨#[.loopOpen, .moveRight, .loopOpen, .moveRight, .loopClose, .loopClose]⟩

/-- A blank tape, no input and no output. -/
def blankConfig : Config := ⟨{ format := (default : Settings).format }, 0, Source.ofText [], ""⟩

/-- On a blank tape both bodies run once. -/
theorem run_iff_doWhile_nestedMoves :
    nestedMoves.Balanced ∧ ∃ fuel o,
      run {} nestedMoves.code fuel (blankConfig.state 0 [] 0) #[] = some o ∧
        o.stop = none ∧ o.state.config = { blankConfig with idx := 2 } := by
  have hp : nestedMoves.Balanced := by decide +kernel
  obtain ⟨t, ht, h⟩ := run_iff_doWhile nestedMoves hp
  obtain rfl := (ht (.loop (.simple .moveRight (.loop (.simple .moveRight .done) .done)) .done)).1 rfl
  refine ⟨hp, ((h {} blankConfig #[] rfl).1 ⟨none, _⟩).2 ?_⟩
  exact .leave (.simple rfl (.leave (.simple rfl .done) rfl .done)) rfl .done

/-- If loop entry is strict, a balanced program runs as the one tree it is the text of, with loops that
look at the cell before every time they run their body. -/
theorem run_iff_while (p : Program) (hp : p.Balanced) :
    ∃ t : Tree, (∀ t' : Tree, t'.instructions = p.instructions.toList ↔ t' = t) ∧
      ∀ (settings : Settings) (c : Config) (log : Array LogEntry), settings.strictLoops = true →
        (∀ e : Exit, (∃ fuel o, run settings p.code fuel (c.state 0 [] 0) log = some o ∧
          o.stop = e.stop ∧ o.state.config = e.config) ↔ While t 0 c e) ∧
        ((∀ fuel, run settings p.code fuel (c.state 0 [] 0) log = none) ↔
          ∀ e, ¬ While t 0 c e) := by
  obtain ⟨t, ht, hu⟩ := exists_unique_tree hp
  refine ⟨t, hu, fun settings c log hs => ?_⟩
  have hsim : Simulates settings p.code While :=
    ⟨fun h stack steps => while_leaves hs h stack steps, fun t => while_passes hs t⟩
  exact hsim.run_iff ht c log

/-- On a blank tape neither body runs. -/
theorem run_iff_while_nestedMoves :
    nestedMoves.Balanced ∧ ∃ fuel o,
      run { strictLoops := true } nestedMoves.code fuel (blankConfig.state 0 [] 0) #[] = some o ∧
        o.stop = none ∧ o.state.config = blankConfig := by
  have hp : nestedMoves.Balanced := by decide +kernel
  obtain ⟨t, ht, h⟩ := run_iff_while nestedMoves hp
  obtain rfl := (ht (.loop (.simple .moveRight (.loop (.simple .moveRight .done) .done)) .done)).1 rfl
  refine ⟨hp, ((h { strictLoops := true } blankConfig #[] rfl).1 ⟨none, _⟩).2 ?_⟩
  exact .leave rfl .done

end TapeMachine.Machine
