import TapeMachine.Proofs.PrintedOutput
import TapeMachine.Proofs.Structured.Triples

/-!
The program `,[.,]` prints what it reads, up to a zero. Each round of its loop prints the character in
the current cell and reads the next one into it, so it takes three steps for each character
(`echo_is_faithful`).
-/
namespace TapeMachine

/-- The first cell is the current one and holds a number; a text has been printed, and another one is
unread. -/
structure Holding (f : CellFormat) (n : Nat) (printed : String) (unread : Text) (ending : SourceEnd)
    (c : Config) : Prop where
  format_eq : c.tape.format = f
  idx_eq : c.idx = 0
  cell_eq : c.cell = n
  output_eq : c.output = printed
  remaining_eq : c.input.remaining = unread
  ending_eq : c.input.ending = ending

theorem Machine.scalar?_toNat (c : Char) : scalar? c.toNat = some c := by
  cases h : scalar? c.toNat with
  | none => exact absurd (isScalar_toNat c) (scalar?_eq_none_iff.1 h)
  | some d => rw [Char.toNat_inj.1 (Int.ofNat.inj (toNat_of_scalar? h))]

namespace Holding

variable {f : CellFormat} {n : Nat} {printed : String} {unread : Text} {ending : SourceEnd} {c : Config}
  {ch : Char} {p : CodePoint}

theorem blank (f : CellFormat) (input : Source) :
    Holding f 0 "" input.remaining input.ending ⟨{ format := f }, 0, input, ""⟩ := by
  refine ⟨rfl, rfl, ?_, rfl, rfl, rfl⟩
  simp [Config.cell, Tape.get]

/-- A number that fits is read into the cell. -/
theorem read (h : Holding f n printed (p :: unread) ending c) (hfits : f.Fits p.val) (pos : Nat) :
    ∃ c', Simple.input.exec pos c = .ok c' ∧ Holding f p.val printed unread ending c' := by
  obtain ⟨hread, hrest, hending⟩ := c.input.read_eq
  rw [h.remaining_eq] at hread hrest
  have hfit : c.tape.format.fit? p.val = some (p.val : Int) := if_pos (h.format_eq ▸ hfits)
  let tape : Tape := { c.tape with stored := c.tape.stored.insert c.idx p.val }
  have hset : c.tape.put c.idx p.val = .ok tape := Tape.put_eq_ok_iff.2 ⟨_, hfit, rfl⟩
  refine ⟨{ c with tape, input := c.input.read.2 }, ?_, h.format_eq, h.idx_eq, ?_, h.output_eq, hrest,
    hending.trans h.ending_eq⟩
  · simp only [Simple.exec, hread, hset, Config.written]
  · simp [Config.cell, Tape.get, tape]

/-- A character that is in the cell is printed. -/
theorem print (h : Holding f ch.toNat printed unread ending c) (pos : Nat) :
    ∃ c', Simple.output.exec pos c = .ok c' ∧ Holding f ch.toNat (printed.push ch) unread ending c' := by
  have hscalar : Machine.scalar? c.cell = some ch := by rw [h.cell_eq, Machine.scalar?_toNat]
  refine ⟨{ c with output := c.output.push ch }, ?_, h.format_eq, h.idx_eq, h.cell_eq, ?_,
    h.remaining_eq, h.ending_eq⟩
  · simp only [Simple.exec, hscalar]
  · rw [h.output_eq]

/-- At the end of the input nothing can be read. -/
theorem exhausted (h : Holding f n printed [] .exhausted c) (pos : Nat) :
    ∃ c', Simple.input.exec pos c = .error (.fault ⟨.inputExhausted, some pos, some 0⟩, c') ∧
      Holding f n printed [] .exhausted c' := by
  obtain ⟨hread, hrest, hending⟩ := c.input.read_eq
  rw [h.remaining_eq, h.ending_eq] at hread
  rw [h.remaining_eq] at hrest
  refine ⟨{ c with input := c.input.read.2 }, ?_, h.format_eq, h.idx_eq, h.cell_eq, h.output_eq, hrest,
    hending.trans h.ending_eq⟩
  simp only [Simple.exec, hread, SourceEnd.read, Config.fault, h.idx_eq]

/-- What stands in the cell is not zero unless it is the character zero. -/
theorem cell_ne_zero (h : Holding f ch.toNat printed unread ending c) (hne : ch ≠ '\x00') :
    c.cell ≠ 0 := by
  intro hzero
  rw [h.cell_eq] at hzero
  have hnull : ch.toNat = '\x00'.toNat := Int.ofNat.inj hzero
  exact hne (Char.toNat_inj.1 hnull)

end Holding

/-- The tree of `,[.,]`. -/
def Tree.echo : Tree := .simple .input (.loop (.simple .output (.simple .input .done)) .done)

namespace Machine

variable {settings : Settings} {code : Code} {f : CellFormat} {n : Nat} {printed : String}
  {unread : Text} {ending : SourceEnd} {c : Config} {ch : Char} {text : List Char}

section Echo

variable (settings) (hcode : code.Holds 0 Tree.echo.instructions)
include hcode

/-- A round of the loop prints the character in the cell and reads the next one. -/
theorem after_round {d : Char} (h : Holding f ch.toNat printed (CodePoint.ofChar d :: unread) ending c)
    (hne : d ≠ '\x00') (hfits : f.Fits d.toNat) (k : Nat) :
    ∃ c', Holding f d.toNat (printed.push ch) unread ending c' ∧
      after settings code 3 (c.state 2 [1] k) = some (c'.state 2 [1] (k + 3)) := by
  obtain ⟨-, -, hprint, hread, hclose, -⟩ := hcode
  obtain ⟨c₁, hexec₁, h₁⟩ := h.print 2
  obtain ⟨c₂, hexec₂, h₂⟩ := h₁.read hfits 3
  have hfirst : next? settings code (c.state 2 [1] k) = some (c₁.state 3 [1] (k + 1)) :=
    next?_simple hprint hexec₁
  have hsecond : next? settings code (c₁.state 3 [1] (k + 1)) = some (c₂.state 4 [1] (k + 2)) :=
    next?_simple hread hexec₂
  have hthird : next? settings code (c₂.state 4 [1] (k + 2)) = some (c₂.state 2 [1] (k + 3)) :=
    next?_back hclose (Holding.cell_ne_zero h₂ hne)
  exact ⟨c₂, h₂, by simp [hfirst, hsecond, hthird]⟩

/-- In the loop, a text is printed that begins with the character in the cell and goes on with what can
be read. After its last character, what follows is unread. -/
theorem after_echo (htext : ∀ d ∈ text, d ≠ '\x00' ∧ f.Fits d.toNat)
    (h : Holding f ch.toNat printed (text.map CodePoint.ofChar ++ unread) ending c) (k : Nat) :
    ∃ c' n, Holding f n (printed ++ String.ofList (ch :: text)) unread ending c' ∧
      after settings code (3 * text.length + 1) (c.state 2 [1] k) =
        some (c'.state 3 [1] (k + (3 * text.length + 1))) := by
  induction text generalizing ch printed c k with
  | nil =>
    obtain ⟨c', hexec, hc'⟩ := h.print 2
    refine ⟨c', ch.toNat, ?_, after_one (next?_simple hcode.2.2.1 hexec)⟩
    rwa [String.ofList_cons, String.ofList_nil, String.append_empty, String.append_singleton]
  | cons d text ih =>
    obtain ⟨⟨hne, hfits⟩, hrest⟩ := List.forall_mem_cons.1 htext
    obtain ⟨c₁, h₁, hround⟩ := after_round settings hcode h hne hfits k
    obtain ⟨c', n, hc', hafter⟩ := ih hrest h₁ (k + 3)
    refine ⟨c', n, ?_, ?_⟩
    · rwa [String.ofList_cons, ← String.append_assoc, String.append_singleton]
    · have hall := after_join hround hafter
      rwa [show 3 + (3 * text.length + 1) = 3 * (d :: text).length + 1 by simp; omega,
        show k + 3 + (3 * text.length + 1) = k + (3 * (d :: text).length + 1) by simp; omega] at hall

/-- From the start, the first character is read and the loop is entered. -/
theorem after_start (h : Holding f n printed (CodePoint.ofChar ch :: unread) ending c)
    (hne : ch ≠ '\x00') (hfits : f.Fits ch.toNat) :
    ∃ c', Holding f ch.toNat printed unread ending c' ∧
      after settings code 2 (c.state 0 [] 0) = some (c'.state 2 [1] 2) := by
  obtain ⟨hread, hopen, -⟩ := hcode
  obtain ⟨c', hexec, hc'⟩ := h.read hfits 0
  have hfirst : next? settings code (c.state 0 [] 0) = some (c'.state 1 [] 1) :=
    next?_simple hread hexec
  have hsecond : next? settings code (c'.state 1 [] 1) = some (c'.state 2 [1] 2) :=
    next?_enter hopen fun _ => Holding.cell_ne_zero hc' hne
  exact ⟨c', hc', by simp [hfirst, hsecond]⟩

/-- A text that is not zero and can be read has been printed after three steps for each character, and
what follows it is unread. -/
theorem after_text (hne : text ≠ []) (htext : ∀ d ∈ text, d ≠ '\x00' ∧ f.Fits d.toNat)
    (h : Holding f n "" (text.map CodePoint.ofChar ++ unread) ending c) :
    ∃ c' n, Holding f n (String.ofList text) unread ending c' ∧
      after settings code (3 * text.length) (c.state 0 [] 0) =
        some (c'.state 3 [1] (3 * text.length)) := by
  obtain ⟨ch, rest, rfl⟩ := List.exists_cons_of_ne_nil hne
  obtain ⟨⟨hnull, hfits⟩, hrest⟩ := List.forall_mem_cons.1 htext
  obtain ⟨c₁, h₁, hstart⟩ := after_start settings hcode h hnull hfits
  obtain ⟨c', n, hc', hafter⟩ := after_echo settings hcode hrest h₁ 2
  rw [String.empty_append] at hc'
  refine ⟨c', n, hc', ?_⟩
  have hall := after_join hstart hafter
  rwa [show 2 + (3 * rest.length + 1) = 3 * (ch :: rest).length by simp; omega] at hall

/-- A zero after the text is read, and ends the loop and the program. -/
theorem ends_of_zero (hne : text ≠ []) (htext : ∀ d ∈ text, d ≠ '\x00' ∧ f.Fits d.toNat)
    (hend : code[5]? = none)
    (h : Holding f n "" (text.map CodePoint.ofChar ++ CodePoint.ofChar '\x00' :: unread) ending c) :
    ∃ c', Holding f 0 (String.ofList text) unread ending c' ∧
      Ends settings code (3 * text.length + 2) (c.state 0 [] 0) none
        (c'.state 5 [] (3 * text.length + 2)) := by
  obtain ⟨c₁, n, h₁, hafter⟩ := after_text settings hcode hne htext h
  obtain ⟨-, -, -, hread, hclose, -⟩ := hcode
  obtain ⟨c', hexec, hc'⟩ := h₁.read f.fits_zero 3
  have hfirst : next? settings code (c₁.state 3 [1] (3 * text.length)) =
      some (c'.state 4 [1] (3 * text.length + 1)) := next?_simple hread hexec
  have hsecond : next? settings code (c'.state 4 [1] (3 * text.length + 1)) =
      some (c'.state 5 [] (3 * text.length + 2)) := next?_leave hclose hc'.cell_eq
  refine ⟨c', hc', c'.state 5 [] (3 * text.length + 2), after_join hafter ?_, halt?_end hend⟩
  simp [hfirst, hsecond]

/-- If nothing follows the text, the read after it fails. -/
theorem ends_of_exhausted (hne : text ≠ []) (htext : ∀ d ∈ text, d ≠ '\x00' ∧ f.Fits d.toNat)
    (h : Holding f n "" (text.map CodePoint.ofChar) .exhausted c) :
    ∃ c' n, Holding f n (String.ofList text) [] .exhausted c' ∧
      Ends settings code (3 * text.length) (c.state 0 [] 0)
        (some (.fault ⟨.inputExhausted, some 3, some 0⟩)) (c'.state 3 [1] (3 * text.length)) := by
  rw [← List.append_nil (text.map CodePoint.ofChar)] at h
  obtain ⟨c₁, n, h₁, hafter⟩ := after_text settings hcode hne htext h
  obtain ⟨-, -, -, hread, -⟩ := hcode
  obtain ⟨c', hexec, hc'⟩ := h₁.exhausted 3
  exact ⟨c', n, hc', c₁.state 3 [1] (3 * text.length), hafter, halt?_simple hread hexec⟩

end Echo

/-- `,[.,]` prints what it reads. On a text of characters other than zero that fit into a cell, followed
by a zero and anything else, it ends after three steps for each character and two more: it has printed
the text and read the zero, which is in the cell, and nothing else. On the text alone it has printed the
text after three steps for each character, and then fails to read. -/
theorem echo_is_faithful (settings : Settings) (text : List Char) (input : Source) (hne : text ≠ [])
    (hnull : '\x00' ∉ text)
    (hfits : ∀ c ∈ text, c.toNat ≤ Nat.pow 2 (settings.cellBits - 1) - 1) :
    let echo := Program.ofSource (Text.ofString ",[.,]")
    let session : Session := { settings, input }
    (∀ rest, input.remaining = text.map CodePoint.ofChar ++ CodePoint.ofChar '\x00' :: rest →
      ∀ fuel, 3 * text.length + 2 < fuel →
        ∃ r after, session.run echo.code fuel = some (r, after) ∧ r.stop = none ∧
          after.lastSteps = 3 * text.length + 2 ∧ after.output = String.ofList text ∧
          r.tape.get 0 = 0 ∧ after.input.remaining = rest) ∧
    (input.remaining = text.map CodePoint.ofChar → input.ending = .exhausted →
      ∀ fuel, 3 * text.length < fuel →
        ∃ r after, session.run echo.code fuel = some (r, after) ∧
          r.stop = some (.fault ⟨.inputExhausted, some 3, some 0⟩) ∧
          after.lastSteps = 3 * text.length ∧ after.output = String.ofList text) := by
  intro echo session
  have hcode : echo.code.Holds 0 Tree.echo.instructions := by
    have htext : Tree.echo.instructions = echo.instructions.toList :=
      Tree.instructions_ofSource (t := Tree.echo) rfl
    exact htext ▸ echo.holds
  have hend : echo.code[5]? = none := by decide +kernel
  have htext : ∀ d ∈ text, d ≠ '\x00' ∧ settings.format.Fits d.toNat := by
    intro d hd
    refine ⟨fun hzero => hnull (hzero ▸ hd), ?_⟩
    have hle := hfits d hd
    have hpos := settings.format.half_pos
    have hhalf : settings.format.half = Nat.pow 2 (settings.cellBits - 1) := rfl
    unfold CellFormat.Fits CellFormat.low CellFormat.high
    omega
  have hblank := Holding.blank settings.format input
  constructor
  · intro rest hremaining fuel hfuel
    rw [hremaining] at hblank
    obtain ⟨c, hc, hends⟩ := ends_of_zero settings hcode hne htext hend hblank
    obtain ⟨log, hrun⟩ := Session.run_of_ends hends hfuel
    refine ⟨_, _, hrun, rfl, rfl, hc.output_eq, ?_, hc.remaining_eq⟩
    have hcell := hc.cell_eq
    rwa [Config.cell, hc.idx_eq] at hcell
  · intro hremaining hending fuel hfuel
    rw [hremaining, hending] at hblank
    obtain ⟨c, n, hc, hends⟩ := ends_of_exhausted settings hcode hne htext hblank
    obtain ⟨log, hrun⟩ := Session.run_of_ends hends hfuel
    exact ⟨_, _, hrun, rfl, rfl, hc.output_eq⟩

/-- In cells of 8 bits that refuse, and with strict entry, the greatest character that fits is printed,
and what follows the zero is unread. Without the zero, the third read fails. -/
theorem echo_is_faithful_greatest :
    let settings : Settings := { strictLoops := true, cellBits := 8, overflow := .trap }
    let text := ['a', '\x7f']
    let echo := Program.ofSource (Text.ofString ",[.,]")
    (∀ c ∈ text, c.toNat ≤ Nat.pow 2 (settings.cellBits - 1) - 1) ∧
    (∃ r after, Session.run { settings, input := Source.ofText (Text.ofString "a\x7f\x00b") } echo.code 9 =
        some (r, after) ∧ r.stop = none ∧ after.lastSteps = 8 ∧ after.output = "a\x7f" ∧
        r.tape.get 0 = 0 ∧ after.input.remaining = Text.ofString "b") ∧
    ∃ r after, Session.run { settings, input := Source.ofText (Text.ofString "a\x7f") } echo.code 7 =
      some (r, after) ∧ r.stop = some (.fault ⟨.inputExhausted, some 3, some 0⟩) ∧
      after.lastSteps = 6 ∧ after.output = "a\x7f" := by
  intro settings text echo
  have hfits : ∀ c ∈ text, c.toNat ≤ Nat.pow 2 (settings.cellBits - 1) - 1 := by
    intro c hc
    simp only [text, List.mem_cons, List.not_mem_nil, or_false] at hc
    rcases hc with rfl | rfl <;> decide
  refine ⟨hfits, ?_, ?_⟩
  · exact (echo_is_faithful settings text _ (by decide) (by decide) hfits).1 _ rfl 9 (by decide)
  · exact (echo_is_faithful settings text _ (by decide) (by decide) hfits).2 rfl rfl 7 (by decide)

end Machine

end TapeMachine
