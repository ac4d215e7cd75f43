import TapeMachine.Proofs.Structured.Semantics
import TapeMachine.Proofs.Trajectory

/-!
How a machine goes through the text of a tree, and what it takes for it to do what a semantics of trees
says (`Simulates`). The two semantics differ only in their loops; that a simulation gives the same
outcomes and the same runs without end is proved once for both (`Simulates.run_iff`).
-/
namespace TapeMachine

namespace Code

variable {code : Code} {pos : Nat} {body rest : Tree}

/-- Instructions stand in the code from a position on. -/
def Holds (code : Code) : Nat → List Instruction → Prop
  | _, [] => True
  | pos, i :: l => code[pos]? = some (.op i) ∧ Holds code (pos + 1) l

theorem holds_append (l l' : List Instruction) :
    code.Holds pos (l ++ l') ↔ code.Holds pos l ∧ code.Holds (pos + l.length) l' := by
  induction l generalizing pos with
  | nil => simp [Holds]
  | cons i l ih =>
    simp only [List.cons_append, Holds, ih, List.length_cons, and_assoc]
    rw [show pos + 1 + l.length = pos + (l.length + 1) by omega]

theorem holds_loop_iff :
    code.Holds pos (Tree.loop body rest).instructions ↔
      code[pos]? = some (.op .loopOpen) ∧ code.Holds (pos + 1) body.instructions ∧
      code[pos + body.size + 1]? = some (.op .loopClose) ∧
      code.Holds (pos + body.size + 2) rest.instructions := by
  simp only [Tree.instructions, Holds, holds_append]
  rw [show pos + 1 + body.instructions.length = pos + body.size + 1 by simp only [Tree.size]; omega]

theorem balanced_of_holds (t : Tree) (h : code.Holds pos t.instructions) :
    code.Balanced pos (pos + t.size) := by
  induction t generalizing pos with
  | done => exact Balanced.refl code pos
  | simple i rest ih =>
    have hi : code.Balanced pos (pos + 1) := Balanced.plain (by simp [h.1]) (by simp [h.1])
    have hr := ih h.2
    rw [Tree.size_simple, show pos + (rest.size + 1) = pos + 1 + rest.size by omega]
    exact hi.trans (by omega) (by omega) hr
  | loop body rest ihb ihr =>
    obtain ⟨ho, hb, hc, hr⟩ := holds_loop_iff.1 h
    have hb' := ihb hb
    rw [show pos + 1 + body.size = pos + body.size + 1 by omega] at hb'
    have hw := Balanced.wrap ho hc (by omega) hb'
    rw [Tree.size_loop, show pos + (body.size + rest.size + 2) = pos + body.size + 2 + rest.size by omega]
    exact hw.trans (by omega) (by omega) (ihr hr)

/-- The brackets of a loop match. -/
theorem matched_of_holds (h : code.Holds pos (Tree.loop body rest).instructions) :
    code.Matched pos (pos + body.size + 1) := by
  obtain ⟨ho, hb, hc, -⟩ := holds_loop_iff.1 h
  have hb' := balanced_of_holds body hb
  rw [show pos + 1 + body.size = pos + body.size + 1 by omega] at hb'
  exact ⟨ho, hc, by omega, hb'⟩

theorem holds_of_getElem? (l : List Instruction)
    (h : ∀ k, k < l.length → code[pos + k]? = l[k]?.map Word.op) : code.Holds pos l := by
  induction l generalizing pos with
  | nil => trivial
  | cons i l ih =>
    refine ⟨by simpa using h 0 (by simp), ih fun k hk => ?_⟩
    have := h (k + 1) (by simpa using hk)
    rw [show pos + 1 + k = pos + (k + 1) by omega]
    simpa using this

end Code

/-- A program holds its own instructions. -/
theorem Program.holds (p : Program) : p.code.Holds 0 p.instructions.toList := by
  apply Code.holds_of_getElem?
  intro k _
  simp [Program.code]

namespace Machine

section Steps

variable {settings : Settings} {code : Code} {c c' : Config} {i : Simple} {stack : List Nat}
  {ip steps top q : Nat}

theorem next?_simple (hi : code[ip]? = some (.op i.instruction)) (hx : i.exec ip c = .ok c') :
    next? settings code (c.state ip stack steps) = some (c'.state (ip + 1) stack (steps + 1)) := by
  have h : code[(c.state ip stack steps).ip]? = some (.op i.instruction) := hi
  rw [next?_op h, execute_simple, hx]
  rfl

theorem halt?_simple {stop : Stop} (hi : code[ip]? = some (.op i.instruction))
    (hx : i.exec ip c = .error (stop, c')) :
    halt? settings code (c.state ip stack steps) = some (some stop, c'.state ip stack steps) := by
  have h : code[(c.state ip stack steps).ip]? = some (.op i.instruction) := hi
  rw [halt?_op_error h (by rw [execute_simple, hx])]

theorem next?_enter (ho : code[ip]? = some (.op .loopOpen))
    (ht : settings.strictLoops = true → c.cell ≠ 0) :
    next? settings code (c.state ip stack steps) =
      some (c.state (ip + 1) (ip :: stack) (steps + 1)) := by
  have h : code[(c.state ip stack steps).ip]? = some (.op .loopOpen) := ho
  have hn : (settings.strictLoops && c.cell == 0) = false := by simpa using ht
  rw [next?_op h]
  simp only [execute, Config.cell_state, hn, Bool.false_eq_true, if_false]
  rfl

theorem next?_skip (hm : code.Matched ip q) (hs : settings.strictLoops = true) (hz : c.cell = 0) :
    next? settings code (c.state ip stack steps) = some (c.state (q + 1) stack (steps + 1)) := by
  have h : code[(c.state ip stack steps).ip]? = some (.op .loopOpen) := hm.opening
  have hf : matchingClose code (c.state ip stack steps).ip = some q :=
    (matchingClose_eq_some_iff hm.opening).2 hm
  rw [next?_op h]
  simp only [execute, Config.cell_state, hs, hz, hf, beq_self_eq_true, Bool.and_self, if_true]
  rfl

theorem next?_back (hc : code[ip]? = some (.op .loopClose)) (hz : c.cell ≠ 0) :
    next? settings code (c.state ip (top :: stack) steps) =
      some (c.state (top + 1) (top :: stack) (steps + 1)) := by
  have h : code[(c.state ip (top :: stack) steps).ip]? = some (.op .loopClose) := hc
  rw [next?_op h]
  simp only [execute, Config.stack_state, Config.cell_state, hz, ne_eq, not_false_eq_true, if_true]
  rfl

theorem next?_leave (hc : code[ip]? = some (.op .loopClose)) (hz : c.cell = 0) :
    next? settings code (c.state ip (top :: stack) steps) =
      some (c.state (ip + 1) stack (steps + 1)) := by
  have h : code[(c.state ip (top :: stack) steps).ip]? = some (.op .loopClose) := hc
  rw [next?_op h]
  simp only [execute, Config.stack_state, Config.cell_state, hz, ne_eq, not_true_eq_false, if_false]
  rfl

end Steps

variable {settings : Settings} {code : Code} {s s' t : State} {ip n m : Nat} {stack : List Nat}
  {stop : Option Stop} {e : Exit} {R R' : Exit → Prop}

/-- From a state the machine comes to a position with these loops open, or stops before, as `e` says. -/
inductive Leaves (settings : Settings) (code : Code) (s : State) (ip : Nat) (stack : List Nat) :
    Exit → Prop where
  | done {c : Config} (n k : Nat) (reached : after settings code n s = some (c.state ip stack k)) :
      Leaves settings code s ip stack ⟨none, c⟩
  | failed {c : Config} {x : Stop} (n : Nat) (t : State) (ended : Ends settings code n s (some x) t)
      (config_eq : t.config = c) : Leaves settings code s ip stack ⟨some x, c⟩

theorem Leaves.of_after (h : after settings code n s = some s') (hl : Leaves settings code s' ip stack e) :
    Leaves settings code s ip stack e := by
  cases hl with
  | done m k reached => exact .done (n + m) k (after_join h reached)
  | failed m t ended config_eq => exact .failed (n + m) t (ended.of_after h) config_eq

theorem Leaves.of_next? (h : next? settings code s = some s') (hl : Leaves settings code s' ip stack e) :
    Leaves settings code s ip stack e :=
  Leaves.of_after (after_one h) hl

/-- A run that ends after `n` steps does so after it has come to a position with these loops open, with
what `R` allows, or before, as `R` allows. -/
inductive Passes (settings : Settings) (code : Code) (n ip : Nat) (stack : List Nat)
    (stop : Option Stop) (t : State) (R : Exit → Prop) : Prop where
  | through (c : Config) (m k : Nat) (exit : R ⟨none, c⟩) (le : m ≤ n)
      (ended : Ends settings code m (c.state ip stack k) stop t)
  | inside (x : Stop) (stop_eq : stop = some x) (exit : R ⟨some x, t.config⟩)

theorem Passes.imp (hle : m ≤ n) (hR : ∀ e, R' e → R e)
    (h : Passes settings code m ip stack stop t R') : Passes settings code n ip stack stop t R := by
  cases h with
  | through c k j exit le ended => exact .through c k j (hR _ exit) (Nat.le_trans le hle) ended
  | inside x stop_eq exit => exact .inside x stop_eq (hR _ exit)

section Simple

variable {c c' : Config} {i : Simple} {rest : Tree} {pos steps : Nat}
  (hp : code.Holds pos (Tree.simple i rest).instructions)
include hp

/-- A completed simple instruction is left with what follows it. -/
theorem Leaves.of_simple (hx : i.exec pos c = .ok c')
    (hr : Leaves settings code (c'.state (pos + 1) stack (steps + 1)) (pos + 1 + rest.size) stack e) :
    Leaves settings code (c.state pos stack steps) (pos + (Tree.simple i rest).size) stack e := by
  rw [Tree.size_simple, show pos + (rest.size + 1) = pos + 1 + rest.size by omega]
  exact Leaves.of_next? (next?_simple hp.1 hx) hr

/-- A run that ends passes a simple instruction, if it then passes what follows. -/
theorem Passes.of_simple {Sem : Tree → Nat → Config → Exit → Prop}
    (he : Ends settings code n (c.state pos stack steps) stop t)
    (completes : ∀ {c' e}, i.exec pos c = .ok c' → Sem rest (pos + 1) c' e →
      Sem (.simple i rest) pos c e)
    (fails : ∀ {x c'}, i.exec pos c = .error (x, c') → Sem (.simple i rest) pos c ⟨some x, c'⟩)
    (hr : ∀ {c' m}, Ends settings code m (c'.state (pos + 1) stack (steps + 1)) stop t →
      Passes settings code m (pos + 1 + rest.size) stack stop t (Sem rest (pos + 1) c')) :
    Passes settings code n (pos + (Tree.simple i rest).size) stack stop t
      (Sem (.simple i rest) pos c) := by
  cases hx : i.exec pos c with
  | ok c' =>
    obtain ⟨m, rfl, hm⟩ := he.of_next? (next?_simple hp.1 hx)
    rw [Tree.size_simple, show pos + (rest.size + 1) = pos + 1 + rest.size by omega]
    exact (hr hm).imp (by omega) fun _ => completes hx
  | error f =>
    obtain ⟨-, hf⟩ := he.of_halt? (halt?_simple hp.1 hx)
    cases hf
    exact .inside f.1 rfl (fails hx)

end Simple

/-- The machine goes through the text of every tree, wherever it stands, as a semantics says. -/
structure Simulates (settings : Settings) (code : Code) (Sem : Tree → Nat → Config → Exit → Prop) :
    Prop where
  forward : ∀ {t pos c e}, Sem t pos c e → ∀ stack steps, code.Holds pos t.instructions →
    Leaves settings code (c.state pos stack steps) (pos + t.size) stack e
  backward : ∀ t {pos c stack steps n stop u}, code.Holds pos t.instructions →
    Ends settings code n (c.state pos stack steps) stop u →
    Passes settings code n (pos + t.size) stack stop u (Sem t pos c)

namespace Simulates

variable {p : Program} {tree : Tree} {Sem : Tree → Nat → Config → Exit → Prop}

/-- At the end of its text, a program has ended. -/
theorem halt?_size (ht : tree.instructions = p.instructions.toList) (c : Config) (k : Nat) :
    halt? settings p.code (c.state (0 + tree.size) [] k) =
      some (none, c.state (0 + tree.size) [] k) := by
  apply halt?_end
  simp [Config.state, Tree.size, ht, Program.code]

/-- The outcomes of a program are those of its tree. -/
theorem ends_iff (h : Simulates settings p.code Sem) (ht : tree.instructions = p.instructions.toList)
    (c : Config) (e : Exit) :
    (∃ n t, Ends settings p.code n (c.state 0 [] 0) e.stop t ∧ t.config = e.config) ↔
      Sem tree 0 c e := by
  have hp : p.code.Holds 0 tree.instructions := ht ▸ p.holds
  constructor
  · rintro ⟨n, t, hn, hc⟩
    obtain ⟨stop, config⟩ := e
    cases hc
    cases h.backward tree hp hn with
    | through c' m k exit le ended =>
      obtain ⟨-, he⟩ := ended.of_halt? (halt?_size ht c' k)
      cases he
      exact exit
    | inside x stop_eq exit =>
      cases stop_eq
      exact exit
  · intro hs
    cases h.forward hs [] 0 hp with
    | @done c' n k reached =>
      exact ⟨n, c'.state (0 + tree.size) [] k, ⟨_, reached, halt?_size ht c' k⟩, rfl⟩
    | failed n t ended config_eq => exact ⟨n, t, ended, config_eq⟩

/-- A run of a program has the outcomes of its tree, and none if its tree has none. -/
theorem run_iff (h : Simulates settings p.code Sem) (ht : tree.instructions = p.instructions.toList)
    (c : Config) (log : Array LogEntry) :
    (∀ e : Exit, (∃ fuel o, run settings p.code fuel (c.state 0 [] 0) log = some o ∧
        o.stop = e.stop ∧ o.state.config = e.config) ↔ Sem tree 0 c e) ∧
    ((∀ fuel, run settings p.code fuel (c.state 0 [] 0) log = none) ↔ ∀ e, ¬ Sem tree 0 c e) := by
  have hall : ∀ e : Exit, (∃ fuel o, run settings p.code fuel (c.state 0 [] 0) log = some o ∧
      o.stop = e.stop ∧ o.state.config = e.config) ↔ Sem tree 0 c e := by
    intro e
    rw [← h.ends_iff ht c e]
    constructor
    · rintro ⟨fuel, o, hr, hs, hc⟩
      obtain ⟨n, hn⟩ := ends_of_run hr
      exact ⟨n, o.state, hs ▸ hn, hc⟩
    · rintro ⟨n, t, hn, hc⟩
      obtain ⟨fuel, o, hr, hs, rfl⟩ := (exists_run_iff_ends _ log).2 ⟨n, hn⟩
      exact ⟨fuel, o, hr, hs, hc⟩
  refine ⟨hall, ?_⟩
  constructor
  · intro hnone e he
    obtain ⟨fuel, o, hr, -⟩ := (hall e).2 he
    rw [hnone fuel] at hr
    cases hr
  · intro hno fuel
    cases hr : run settings p.code fuel (c.state 0 [] 0) log with
    | none => rfl
    | some o => exact absurd ((hall ⟨o.stop, o.state.config⟩).1 ⟨fuel, o, hr, rfl, rfl⟩) (hno _)

end Simulates

end Machine

end TapeMachine
