import TapeMachine.Proofs.Structured.Simulation
import TapeMachine.Session

/-!
What the text of a tree makes of a state, as triples. `Turns` says that the machine comes to the end of
the text from every state with one property, and is then in a state with another one. Triples are put
together along the tree; a loop needs a count of the rounds that are left, and one rule serves both
kinds of loop entry (`Turns.loop`).
-/
namespace TapeMachine

theorem Tree.instructions_append (t u : Tree) :
    (t.append u).instructions = t.instructions ++ u.instructions := by
  induction t with
  | done => rfl
  | simple i rest ih => simp [append, instructions, ih]
  | loop body rest _ ih => simp [append, instructions, ih]

theorem Tree.size_append (t u : Tree) : (t.append u).size = t.size + u.size := by
  simp [size, instructions_append]

/-- The program that is read from the symbols of a tree is its text. -/
theorem Tree.instructions_ofSource {t : Tree} {symbols : List Char}
    (h : t.instructions.map Instruction.symbol = symbols) :
    t.instructions = (Program.ofSource (Text.ofString (String.ofList symbols))).instructions.toList := by
  have hsource : String.ofList symbols = (⟨t.instructions.toArray⟩ : Program).source := by
    rw [Program.source, ← h]
  rw [hsource, Program.ofSource_source]

/-- A new session in which code is run has then what the run has at its end. -/
theorem Session.run_of_ends {settings : Settings} {input : Source} {code : Code} {n fuel : Nat}
    {stop : Option Stop} {s : State}
    (h : Machine.Ends settings code n { tape := { format := settings.format }, input } stop s)
    (hfuel : n < fuel) :
    ∃ log, Session.run { settings, input } code fuel =
      some (⟨stop, s.tape, log⟩,
        { settings, input := s.input, output := s.output, lastSteps := s.steps }) := by
  obtain ⟨o, hrun, rfl, rfl⟩ := (Machine.run_iff_ends fuel _ _).2 ⟨n, hfuel, h⟩
  have hstart : Machine.start settings code { format := settings.format } input fuel = some o := hrun
  exact ⟨o.log, (Session.run_eq_some_iff rfl).2 ⟨o, hstart, rfl, by rw [String.empty_append]⟩⟩

namespace Machine

variable {settings : Settings} {t u body : Tree} {P Q R : Config → Prop}

/-- From every state with the property `P`, the machine comes to the end of the text of a tree, with the
loops open that were open before, and then has the property `Q`. -/
def Turns (settings : Settings) (t : Tree) (P Q : Config → Prop) : Prop :=
  ∀ (code : Code) (pos : Nat) (stack : List Nat) (steps : Nat) (c : Config),
    code.Holds pos t.instructions → P c →
    ∃ c' n k, Q c' ∧
      after settings code n (c.state pos stack steps) = some (c'.state (pos + t.size) stack k)

theorem Turns.done (settings : Settings) (P : Config → Prop) : Turns settings .done P P := by
  intro code pos stack steps c _ hc
  exact ⟨c, 0, steps, hc, rfl⟩

/-- One tree after another. -/
theorem Turns.seq (h : Turns settings t P Q) (h' : Turns settings u Q R) :
    Turns settings (t.append u) P R := by
  intro code pos stack steps c hcode hc
  rw [Tree.instructions_append, Code.holds_append] at hcode
  obtain ⟨c₁, n, k, hc₁, hn⟩ := h code pos stack steps c hcode.1 hc
  obtain ⟨c₂, n', k', hc₂, hn'⟩ := h' code (pos + t.size) stack k c₁ hcode.2 hc₁
  refine ⟨c₂, n + n', k', hc₂, ?_⟩
  rw [Tree.size_append, ← Nat.add_assoc]
  exact after_join hn hn'

theorem Turns.imp {P' Q' : Config → Prop} (h : Turns settings t P Q) (hP : ∀ c, P' c → P c)
    (hQ : ∀ c, Q c → Q' c) : Turns settings t P' Q' := by
  intro code pos stack steps c hcode hc
  obtain ⟨c', n, k, hc', hn⟩ := h code pos stack steps c hcode (hP c hc)
  exact ⟨c', n, k, hQ c' hc', hn⟩

theorem Turns.simple {i : Simple} (h : ∀ pos c, P c → ∃ c', i.exec pos c = .ok c' ∧ Q c') :
    Turns settings (.simple i .done) P Q := by
  intro code pos stack steps c hcode hc
  obtain ⟨c', hexec, hc'⟩ := h pos c hc
  exact ⟨c', 1, steps + 1, hc', after_one (next?_simple hcode.1 hexec)⟩

/-- A loop that is entered while rounds are left is left when none is. The cell is looked at after each
round, and is zero exactly then. -/
theorem Turns.entered (rounds : Nat → Config → Prop) {n : Nat}
    (hbody : ∀ k, Turns settings body (rounds (k + 1)) (rounds k))
    (hzero : ∀ k c, k < n → rounds k c → (c.cell = 0 ↔ k = 0))
    {code : Code} {pos : Nat} (stack : List Nat) (steps : Nat)
    (hcode : code.Holds pos (Tree.loop body .done).instructions) {k : Nat} (hk : k < n)
    {c : Config} (hc : rounds (k + 1) c) :
    ∃ c' m j, rounds 0 c' ∧ after settings code m (c.state (pos + 1) (pos :: stack) steps) =
      some (c'.state (pos + body.size + 2) stack j) := by
  obtain ⟨-, htext, hclose, -⟩ := Code.holds_loop_iff.1 hcode
  induction k generalizing c steps with
  | zero =>
    obtain ⟨c', m, j, hc', hm⟩ := hbody 0 code (pos + 1) (pos :: stack) steps c htext hc
    have hcell : c'.cell = 0 := (hzero 0 c' hk hc').2 rfl
    rw [show pos + 1 + body.size = pos + body.size + 1 by omega] at hm
    exact ⟨c', m + 1, j + 1, hc', after_join hm (after_one (next?_leave hclose hcell))⟩
  | succ k ih =>
    obtain ⟨c₁, m, j, hc₁, hm⟩ := hbody (k + 1) code (pos + 1) (pos :: stack) steps c htext hc
    have hcell : c₁.cell ≠ 0 := fun hz => Nat.succ_ne_zero k ((hzero (k + 1) c₁ hk hc₁).1 hz)
    rw [show pos + 1 + body.size = pos + body.size + 1 by omega] at hm
    have hback := after_join hm (after_one (next?_back hclose hcell))
    obtain ⟨c', m', j', hc', hm'⟩ := ih (j + 1) (by omega) hc₁
    exact ⟨c', m + 1 + m', j', hc', after_join hback hm'⟩

/-- A loop runs the rounds that are left, if there are any and it is entered at all. -/
theorem Turns.loop (rounds : Nat → Config → Prop) {n : Nat}
    (hbody : ∀ k, Turns settings body (rounds (k + 1)) (rounds k))
    (hzero : ∀ k c, k < n → rounds k c → (c.cell = 0 ↔ k = 0)) (hn : 0 < n)
    (hentry : settings.strictLoops = true → ∀ c, rounds n c → c.cell ≠ 0) :
    Turns settings (.loop body .done) (rounds n) (rounds 0) := by
  intro code pos stack steps c hcode hc
  obtain ⟨k, rfl⟩ := Nat.exists_eq_add_one.2 hn
  obtain ⟨c', m, j, hc', hm⟩ :=
    entered rounds hbody hzero stack (steps + 1) hcode (Nat.lt_succ_self k) hc
  refine ⟨c', 1 + m, j, hc', ?_⟩
  rw [Tree.size_loop, Tree.size_done, show pos + (body.size + 0 + 2) = pos + body.size + 2 by omega]
  have hopen := (Code.holds_loop_iff.1 hcode).1
  exact after_join (after_one (next?_enter hopen fun hstrict => hentry hstrict c hc)) hm

/-- With strict entry, a loop is passed over where the cell is zero. -/
theorem Turns.skip (hstrict : settings.strictLoops = true) (hzero : ∀ c, P c → c.cell = 0)
    (hPQ : ∀ c, P c → Q c) : Turns settings (.loop body .done) P Q := by
  intro code pos stack steps c hcode hc
  refine ⟨c, 1, steps + 1, hPQ c hc, ?_⟩
  rw [Tree.size_loop, Tree.size_done, show pos + (body.size + 0 + 2) = pos + body.size + 1 + 1 by omega]
  exact after_one (next?_skip (Code.matched_of_holds hcode) hstrict (hzero c hc))

/-- A program whose tree turns a blank tape into something comes to its end with that. -/
theorem Turns.run {p : Program} (h : Turns settings t P Q)
    (ht : t.instructions = p.instructions.toList) {input : Source}
    (hP : P ⟨{ format := settings.format }, 0, input, ""⟩) :
    ∃ c fuel k, Q c ∧ p.run input settings fuel = some (.ok ⟨c.output, c.tape, k⟩) := by
  have hcode : p.code.Holds 0 t.instructions := ht ▸ p.holds
  obtain ⟨c, n, k, hc, hn⟩ := h p.code 0 [] 0 _ hcode hP
  obtain ⟨log, hrun⟩ := Session.run_of_ends ⟨_, hn, Simulates.halt?_size ht c k⟩ (Nat.lt_succ_self n)
  refine ⟨c, n + 1, k, hc, ?_⟩
  rw [Program.run, hrun]
  rfl

end Machine

end TapeMachine
