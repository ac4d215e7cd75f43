import TapeMachine.Proofs.Brackets.JumpTable
import TapeMachine.Proofs.Brackets.Search

/-!
Where bracket faults can arise. Brackets are looked at only when a run comes to them, yet which of
them can fail is decided by the code: the first `]` that closes nothing, and a `[` that nothing closes
(`bracket_faults_static`).
-/
namespace TapeMachine

namespace Code

variable {code : Code} {j n q : Nat}

/-- The first `]` that finds no loop open. -/
structure Stray (code : Code) (q : Nat) : Prop where
  closing : code[q]? = some (.op .loopClose)
  nesting_eq : code.nesting q = some []

/-- The scan gets no further than a stray `]`. -/
theorem Stray.nesting_eq_none (h : code.Stray q) (hn : q < n) : code.nesting n = none := by
  cases hs : code.nesting n with
  | none => rfl
  | some st =>
    obtain ⟨st', hs'⟩ := nesting_of_le hs hn
    rw [nesting_close h.closing h.nesting_eq] at hs'
    cases hs'

theorem not_stray_of_balanced (h : code.Balanced 0 code.size) : ¬ code.Stray q := by
  intro hq
  have hn := nesting_balanced h (Nat.zero_le _) (nesting_zero code)
  rw [hq.nesting_eq_none (lt_size_of_getElem? hq.closing)] at hn
  cases hn

theorem exists_matched_of_balanced (h : code.Balanced 0 code.size)
    (hj : code[j]? = some (.op .loopOpen)) : ∃ q, code.Matched j q := by
  obtain ⟨q, hq, -⟩ := h.exists_matched (Nat.zero_le j) (lt_size_of_getElem? hj) hj
  exact ⟨q, hq⟩

end Code

namespace Machine

variable {settings : Settings} {code : Code} {s t : State} {stop : Option Stop} {f : Fault} {n q : Nat}

/-- A run never gets past a stray `]`. -/
theorem Nested.ip_le_stray (h : Nested code s) (hq : code.Stray q) : s.ip ≤ q := by
  rcases Nat.lt_or_ge q s.ip with hlt | hge
  · have := h.nesting_ip
    rw [hq.nesting_eq_none hlt] at this
    cases this
  · exact hge

/-- A run that reaches the end of the code leaves open the loops that are never closed. -/
theorem Nested.halt?_none (h : Nested code s) (hh : halt? settings code s = some (none, t)) :
    t = s ∧ s.ip = code.size ∧ s.stack = code.unclosed.reverse := by
  obtain ⟨hc, -, rfl⟩ | ⟨w, -, -, hs⟩ | ⟨i, g, -, -, hs, -⟩ := halt?_cases hh
  · have hip : t.ip = code.size := Nat.le_antisymm h.ip_le (Array.getElem?_eq_none_iff.1 hc)
    exact ⟨rfl, hip, Code.nesting_size (hip ▸ h.nesting_ip)⟩
  · rcases hs with hs | hs <;> cases hs
  · cases hs

/-- An unmatched `]` is reported only where it is stray. -/
theorem Nested.halt?_unmatchedClose (h : Nested code s)
    (hh : halt? settings code s = some (some (.fault f), t)) (hf : f.cause = .unmatchedClose) :
    code.Stray s.ip ∧ f.ip = some (s.ip : Int) := by
  obtain ⟨-, hs, -⟩ | ⟨w, -, -, hs⟩ | ⟨i, g, hi, he, hs, -⟩ := halt?_cases hh
  · cases hs
  · rcases hs with hs | hs <;> cases hs
  · cases refusal_of_execute he with
    | shift | store | output | exhausted | unmatchedOpen =>
      cases hs
      cases hf
    | undecodable => cases hs
    | unmatchedClose empty =>
      cases hs
      exact ⟨⟨hi, empty ▸ h.nesting_ip⟩, rfl⟩

/-- An unmatched `[` is reported only where it had to be skipped and cannot be. -/
theorem halt?_unmatchedOpen (hh : halt? settings code s = some (some (.fault f), t))
    (hf : f.cause = .unmatchedOpen) :
    settings.strictLoops = true ∧ t.cell = 0 ∧ f.ip = some (s.ip : Int) ∧
      code[s.ip]? = some (.op .loopOpen) ∧ ∀ q, ¬ code.Matched s.ip q := by
  obtain ⟨-, hs, -⟩ | ⟨w, -, -, hs⟩ | ⟨i, g, hi, he, hs, rfl⟩ := halt?_cases hh
  · cases hs
  · rcases hs with hs | hs <;> cases hs
  · cases refusal_of_execute he with
    | shift | store | output | exhausted | unmatchedClose =>
      cases hs
      cases hf
    | undecodable => cases hs
    | unmatchedOpen mode zero missing =>
      cases hs
      exact ⟨mode, zero, rfl, hi, (matchingClose_eq_none_iff hi).1 missing⟩

/-- The state in which a run from the beginning ends, and how. -/
theorem nested_of_start {tape : Tape} {input : Source} {fuel : Nat} {o : Outcome}
    (h : start settings code tape input fuel = some o) :
    ∃ s, Nested code s ∧ halt? settings code s = some (o.stop, o.state) := by
  obtain ⟨n, s, hs, hh⟩ := ends_of_run h
  exact ⟨s, (nested_start code tape input).of_after hs, hh⟩

/-- Bracket faults are decided by the program, whatever path a run takes. An unmatched `]` is reported
only at the stray one, past which no run gets; an unmatched `[` only in strict mode, on a zero cell, at
a `[` that has no match; and a run that reaches the end has as many loops open as are never closed. -/
theorem bracket_faults_static (settings : Settings) (p : Program) (tape : Tape) (input : Source) :
    (∀ fuel o, start settings p.code tape input fuel = some o →
      (∀ f, o.stop = some (.fault f) → f.cause = .unmatchedClose →
        ∃ q : Nat, p.code.Stray q ∧ f.ip = some (q : Int)) ∧
      (∀ f, o.stop = some (.fault f) → f.cause = .unmatchedOpen →
        settings.strictLoops = true ∧ o.state.cell = 0 ∧
        ∃ j : Nat, f.ip = some (j : Int) ∧ p.code[j]? = some (.op .loopOpen) ∧
          ∀ q, ¬ p.code.Matched j q) ∧
      (o.stop = none → o.state.stack.length = p.code.unclosed.length ∧
        o.log.back? = some (.finish o.state.steps o.state.tape.size p.code.unclosed.length)) ∧
      (p.Balanced → ∀ f, o.stop = some (.fault f) →
        f.cause ≠ .unmatchedClose ∧ f.cause ≠ .unmatchedOpen)) ∧
    ∀ q, p.code.Stray q →
      (∀ n s, after settings p.code n { tape, input } = some s → s.ip ≤ q) ∧
      ∀ fuel o, start settings p.code tape input fuel = some o → o.stop ≠ none := by
  refine ⟨?_, ?_⟩
  · intro fuel o ho
    obtain ⟨s, hs, hh⟩ := nested_of_start ho
    refine ⟨?_, ?_, ?_, ?_⟩
    · intro f hf hc
      rw [hf] at hh
      obtain ⟨hq, hip⟩ := hs.halt?_unmatchedClose hh hc
      exact ⟨s.ip, hq, hip⟩
    · intro f hf hc
      rw [hf] at hh
      obtain ⟨hmode, hz, hip, hj, hq⟩ := halt?_unmatchedOpen hh hc
      exact ⟨hmode, hz, s.ip, hip, hj, hq⟩
    · intro hn
      rw [hn] at hh
      obtain ⟨hst, -, hstack⟩ := hs.halt?_none hh
      have hlen : o.state.stack.length = p.code.unclosed.length := by
        rw [hst, hstack, List.length_reverse]
      obtain ⟨before, hlog⟩ := log_of_run ho hn
      refine ⟨hlen, ?_⟩
      rw [hlog, Array.back?_push, LogEntry.ofEnd, hlen]
    · intro hb f hf
      rw [hf] at hh
      refine ⟨?_, ?_⟩
      · intro hc
        exact Code.not_stray_of_balanced hb (hs.halt?_unmatchedClose hh hc).1
      · intro hc
        obtain ⟨-, -, -, hj, hq⟩ := halt?_unmatchedOpen hh hc
        obtain ⟨q, hm⟩ := Code.exists_matched_of_balanced hb hj
        exact hq q hm
  · intro q hq
    refine ⟨?_, ?_⟩
    · intro n s ha
      exact ((nested_start p.code tape input).of_after ha).ip_le_stray hq
    · intro fuel o ho hn
      obtain ⟨s, hs, hh⟩ := nested_of_start ho
      rw [hn] at hh
      obtain ⟨-, hip, -⟩ := hs.halt?_none hh
      have hle := hs.ip_le_stray hq
      have hlt := Code.lt_size_of_getElem? hq.closing
      omega

/-- In `[>]]` with strict entry the loop is skipped, and the last `]` is stray. -/
theorem bracket_faults_static_skipped :
    let p : Program := ⟨#[.loopOpen, .moveRight, .loopClose, .loopClose]⟩
    let tape : Tape := { format := ({} : Settings).format }
    ∃ o f, start { strictLoops := true } p.code tape (Source.ofText []) 2 = some o ∧
      o.stop = some (.fault f) ∧ f.cause = .unmatchedClose ∧
      ∃ q : Nat, p.code.Stray q ∧ f.ip = some (q : Int) := by
  intro p tape
  let f : Fault := ⟨.unmatchedClose, some 3, some 0⟩
  let o : Outcome :=
    ⟨some (.fault f), { tape, input := Source.ofText [], ip := 3, steps := 1 }, #[.start 4 true]⟩
  have ho : start { strictLoops := true } p.code tape (Source.ofText []) 2 = some o := by cbv
  have h := (bracket_faults_static { strictLoops := true } p tape (Source.ofText [])).1 2 o ho
  exact ⟨o, f, ho, rfl, rfl, h.1 f rfl rfl⟩

end Machine

end TapeMachine
