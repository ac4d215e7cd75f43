import TapeMachine.Proofs.CellRange
import TapeMachine.Proofs.Json.RoundTrip
import TapeMachine.Report

/-!
Reports, written and read back. A report of a run on a tape that was filled by writes is read from its
text, in every layout, as it was (`Report.ofRun_survives_writing`).
-/
namespace TapeMachine

open Integer (Short)

namespace Value

theorem ofJsonMembers_eq (members : List (String × Json)) :
    ofJsonMembers members = members.map fun m => (.text (Text.ofString m.1), ofJson m.2) := by
  induction members with
  | nil => rfl
  | cons m members ih => simp [ofJsonMembers, ih]

/-- The entries of an object are found by the names of its members. -/
theorem lookup?_ofJsonMembers (name : String) (members : List (String × Json)) :
    lookup? name (ofJsonMembers members) = (Json.member? name members).map ofJson := by
  have hname : ∀ m : String × Json, (Text.ofString m.1 == Text.ofString name) = (m.1 == name) := by
    intro m
    rw [Bool.eq_iff_iff, beq_iff_eq, beq_iff_eq]
    exact ⟨Text.ofString_injective, congrArg Text.ofString⟩
  rw [lookup?, ofJsonMembers_eq, Json.member?, ← List.map_reverse, List.find?_map]
  simp only [Function.comp_def, hname, Option.map_map]

variable {α : Type} {check : Value → Checked α} {name : String} {a : α} {j : Json}
  {members : List (String × Json)}

/-- A field is read from the member that has its name, whatever its default. -/
theorem field_ofJsonMembers (default : α) (hj : Json.member? name members = some j)
    (h : check (ofJson j) = .ok a) : field (ofJsonMembers members) name default check = .ok a := by
  rw [field, lookup?_ofJsonMembers, hj]
  simp only [Option.map_some, h, Checked.within_ok]

/-- The text of an integer stands for that integer. -/
theorem toInt_toString {n : Int} (h : Short n) : toInt (.text (Text.ofString (toString n))) = .ok n := by
  simp only [toInt, textForm?, Text.toString?_ofString, bind, Except.bind,
    Integer.parseLoose_toString h]
  rfl

/-- The name of an overflow mode is in lower case and has no blanks around it. -/
theorem toOverflow_name (m : OverflowMode) : toOverflow (.text (Text.ofString m.name)) = .ok m := by
  have hplain : (Text.ofString m.name).strip.lower = Text.ofString m.name := by
    cases m <;> decide +kernel
  simp only [toOverflow, hplain, textForm?, Text.toString?_ofString, OverflowMode.ofName?_name]

end Value

/-- Settings are read from a report as they are written there. -/
theorem Settings.ofValue_settingsJson (s : Settings) :
    ofValue .json (Value.ofJson (Report.settingsJson s)) = .ok s := by
  have hwidth : Value.toWidth (.int s.cellBits) = .ok ⟨s.cellBits, s.le_cellBits, s.cellBits_le⟩ := by
    have h₁ : ¬ (s.cellBits : Int) < 8 := by have := s.le_cellBits; omega
    have h₂ : ¬ 64 < (s.cellBits : Int) := by have := s.cellBits_le; omega
    simp [Value.toWidth, Value.toInt, h₁, h₂, bind, Except.bind, pure, Except.pure]
  rw [Report.settingsJson, Value.ofJson, ofValue, ofEntries]
  rw [Value.field_ofJsonMembers (a := s.strictLoops) _ rfl rfl,
    Value.field_ofJsonMembers _ rfl hwidth,
    Value.field_ofJsonMembers _ rfl (Value.toOverflow_name s.overflow),
    Value.field_ofJsonMembers (a := s.trace) _ rfl rfl]
  rfl

namespace Report

theorem required_ofJsonMembers {α : Type} {check : Value → Checked α} {name : String} {a : α}
    {j : Json} {members : List (String × Json)} (hj : Json.member? name members = some j)
    (h : check (Value.ofJson j) = .ok a) :
    required (Value.ofJsonMembers members) name check = .ok a := by
  rw [required, Value.lookup?_ofJsonMembers, hj]
  simp only [Option.map_some, h, Checked.within_ok]

theorem toCount_int {bound n : Nat} (h : bound ≤ n) : toCount bound (.int n) = .ok n := by
  have hn : ¬ (n : Int) < bound := by omega
  simp [toCount, Value.toIntFrom, Value.toInt, hn, bind, Except.bind, pure, Except.pure, Except.map]

section Cells

variable {cells : List (Int × Int)}

theorem put_new {i v : Int} (h : ∀ c ∈ cells, c.1 ≠ i) : put i v cells = cells ++ [(i, v)] := by
  induction cells with
  | nil => rfl
  | cons c cells ih => simp [put, h c, ih fun d hd => h d (by simp [hd])]

/-- Cells with different indices are put in their order, one after another. -/
theorem foldl_put {listed : List (Int × Int)}
    (h : (listed ++ cells).Pairwise fun a b => a.1 ≠ b.1) :
    cells.foldl (fun acc (c : Int × Int) => put c.1 c.2 acc) listed = listed ++ cells := by
  induction cells generalizing listed with
  | nil => simp
  | cons c cells ih =>
    have hnew : ∀ d ∈ listed, d.1 ≠ c.1 := fun d hd =>
      (List.pairwise_append.1 h).2.2 d hd c (by simp)
    have happend : listed ++ c :: cells = (listed ++ [c]) ++ cells := by simp
    rw [List.foldl_cons, put_new hnew, happend]
    exact ih (happend ▸ h)

theorem toCells_cellMembers (h : ∀ c ∈ cells, Short c.1) :
    toCells (Value.ofJsonMembers (cellMembers cells)) = .ok cells := by
  induction cells with
  | nil => rfl
  | cons c cells ih =>
    have hcell : toCell (.text (Text.ofString (toString c.1))) (.int c.2) = .ok c := by
      simp only [toCell, Value.toInt_toString (h c (by simp)), Checked.within_ok]
      rfl
    have hrest := ih fun d hd => h d (by simp [hd])
    change (Checked.both (toCell (.text (Text.ofString (toString c.1))) (.int c.2))
      (toCells (Value.ofJsonMembers (cellMembers cells)))).map _ = _
    rw [hcell, hrest]
    rfl

theorem cellsOfValue_cellMembers (h : ∀ c ∈ cells, Short c.1)
    (ascending : cells.Pairwise fun a b => a.1 < b.1) :
    cellsOfValue (Value.ofJson (.obj (cellMembers cells))) = .ok cells := by
  change (toCells (Value.ofJsonMembers (cellMembers cells))).map _ = _
  rw [toCells_cellMembers h]
  -- No index comes twice, so no cell is put in the place of another.
  have hdistinct : ([] ++ cells).Pairwise fun (a b : Int × Int) => a.1 ≠ b.1 :=
    ascending.imp fun hlt => Int.ne_of_lt hlt
  exact congrArg Except.ok (foldl_put hdistinct)

end Cells

/-- A report that can be read once it has been written. -/
structure Writable (r : Report) : Prop where
  version : 1 ≤ r.schemaVersion
  version_short : Short r.schemaVersion
  length_short : Short r.programLength
  steps_short : Short r.steps
  output : ∀ c ∈ r.output, c.isSurrogate = false
  ascending : r.cells.Pairwise fun a b => a.1 < b.1
  cells_short : ∀ c ∈ r.cells, Short c.1 ∧ Short c.2

variable {r : Report}

theorem readable_settingsJson (s : Settings) (depth : Nat) :
    (settingsJson s).Readable (depth + 1) := by
  have hbits : Short s.cellBits := Integer.short_of_natAbs_lt (by have := s.cellBits_le; omega)
  refine .obj _ fun m hm => ?_
  simp only [List.mem_cons, List.not_mem_nil, or_false] at hm
  rcases hm with rfl | rfl | rfl | rfl
  · exact .bool _
  · exact .int _ hbits
  · exact .str _
  · exact .bool _

theorem readable_json (h : r.Writable) : r.json.Readable Json.maxDepth := by
  refine .obj _ fun m hm => ?_
  simp only [List.mem_cons, List.not_mem_nil, or_false] at hm
  rcases hm with rfl | rfl | rfl | rfl | rfl | rfl
  · exact .int _ h.version_short
  · exact .int _ h.length_short
  · exact .int _ h.steps_short
  · exact .str _
  · refine .obj _ fun m hm => ?_
    obtain ⟨c, hc, rfl⟩ := List.mem_map.1 hm
    exact .int _ (h.cells_short c hc).2
  · exact readable_settingsJson r.settings _

theorem ofValue_json (h : r.Writable) : ofValue (Value.ofJson r.json) = .ok r := by
  have hcells := cellsOfValue_cellMembers (fun c hc => (h.cells_short c hc).1) h.ascending
  have houtput : textOfValue (Value.ofJson (.str r.output.display)) = .ok r.output :=
    congrArg Except.ok (Text.ofString_display h.output)
  rw [json, Value.ofJson, ofValue, ofEntries]
  rw [Value.field_ofJsonMembers _ rfl (toCount_int h.version),
    required_ofJsonMembers rfl (toCount_int (Nat.zero_le r.programLength)),
    required_ofJsonMembers rfl (toCount_int (Nat.zero_le r.steps)),
    Value.field_ofJsonMembers _ rfl houtput, Value.field_ofJsonMembers _ rfl hcells,
    required_ofJsonMembers rfl (Settings.ofValue_settingsJson r.settings)]
  rfl

/-- A report is read from its text, in every layout, as it was. -/
theorem read_render (h : r.Writable) (l : Json.Layout) : read (r.json.render l) = .ok r := by
  simp only [read, Json.parse?_render (readable_json h), ofValue_json h]
  rfl

theorem write_eq_ok (h : r.Writable) (l : Json.Layout) : r.write l = .ok (r.json.render l) := by
  rw [write, Text.firstSurrogates_eq_none h.output]

theorem short_of_fits {s : Settings} {v : Int} (h : s.format.Fits v) : Short v := by
  have hv := Settings.natAbs_le_of_fits h
  exact Integer.short_of_natAbs_lt (by omega)

variable {settings : Settings} {tape : Tape} {output : Text} {programLength steps : Int}

theorem ofRun_eq_ok (tape : Tape) (output : Text) (settings : Settings) (hlength : 0 ≤ programLength)
    (hsteps : 0 ≤ steps) :
    ofRun tape output programLength steps settings =
      .ok ⟨1, programLength.toNat, steps.toNat, output, tape.cells, settings⟩ := by
  obtain ⟨n, rfl⟩ := Int.eq_ofNat_of_zero_le hlength
  obtain ⟨m, rfl⟩ := Int.eq_ofNat_of_zero_le hsteps
  simp only [ofRun, toCount_int (Nat.zero_le _), Checked.within_ok, Checked.both_ok,
    Int.toNat_natCast]

/-- The report of a run is made, written and read back without loss in every layout, so that writing
what was read gives the same text again. Cells stand in the text by ascending index. -/
theorem ofRun_survives_writing (htape : Tape.Reached settings.format tape)
    (houtput : ∀ c ∈ output, c.isSurrogate = false) (hlength : 0 ≤ programLength) (hsteps : 0 ≤ steps)
    (length_short : Short programLength) (steps_short : Short steps)
    (indices_short : ∀ c ∈ tape.cells, Short c.1) (indent : Option Nat) :
    ∃ r text, ofRun tape output programLength steps settings = .ok r ∧
      (r.schemaVersion = 1 ∧ r.programLength = programLength ∧ r.steps = steps ∧
        r.output = output ∧ r.cells = tape.cells ∧ r.settings = settings) ∧
      r.write ⟨indent⟩ = .ok text ∧ read text = .ok r ∧
      Json.parse? text = some r.json ∧ r.cells.Pairwise fun a b => a.1 < b.1 := by
  have hwritable : Writable ⟨1, programLength.toNat, steps.toNat, output, tape.cells, settings⟩ :=
    { version := Nat.le_refl 1
      version_short := show Short 1 by decide
      length_short := by rwa [Int.toNat_of_nonneg hlength]
      steps_short := by rwa [Int.toNat_of_nonneg hsteps]
      output := houtput
      ascending := tape.pairwise_cells
      cells_short := fun c hc => ⟨indices_short c hc, short_of_fits (htape.fits.2 c hc)⟩ }
  refine ⟨_, _, ofRun_eq_ok tape output settings hlength hsteps, ?_, write_eq_ok hwritable ⟨indent⟩,
    read_render hwritable _, Json.parse?_render (readable_json hwritable) _, tape.pairwise_cells⟩
  exact ⟨rfl, Int.toNat_of_nonneg hlength, Int.toNat_of_nonneg hsteps, rfl, rfl, rfl⟩

/-- Cells of a byte that refuse what does not fit. -/
def narrow : Settings := ⟨true, 8, .trap, false, Nat.le_refl 8, Nat.le_of_ble_eq_true rfl⟩

/-- A tape of bytes with the least value on the left and the greatest far to the right. -/
def extremes : Tape :=
  ⟨narrow.format,
    ((∅ : Std.ExtTreeMap Int Int compare).insert (-5) (-128)).insert 100000000000000000000 127⟩

theorem ofRun_survives_writing_extremes :
    extremes.cells = [(-5, -128), (100000000000000000000, 127)] ∧
    ∃ r text, ofRun extremes (Text.ofString "\"\\\n\x01é") 3 12 narrow = .ok r ∧
      (r.schemaVersion = 1 ∧ r.programLength = (3 : Int) ∧ r.steps = (12 : Int) ∧
        r.output = Text.ofString "\"\\\n\x01é" ∧ r.cells = extremes.cells ∧ r.settings = narrow) ∧
      r.write ⟨some 2⟩ = .ok text ∧ read text = .ok r ∧
      Json.parse? text = some r.json ∧ r.cells.Pairwise fun a b => a.1 < b.1 := by
  have htape : Tape.Reached narrow.format extremes :=
    .set (.set (i := -5) (v := -128) .blank rfl) (i := 100000000000000000000) (v := 127) rfl
  have hcells : extremes.cells = [(-5, -128), (100000000000000000000, 127)] := by decide +kernel
  refine ⟨hcells, ofRun_survives_writing htape (by decide +kernel) (by decide) (by decide) (by decide)
    (by decide) ?_ (some 2)⟩
  rw [hcells]
  decide +kernel

end Report

end TapeMachine
