import TapeMachine.Proofs.InputRead
import TapeMachine.Session

/-!
The step count that a machine keeps between its runs. A run whose tape can be seeded leaves the number of
instructions it has completed, however it ends. A run whose tape cannot be seeded completes none, and
leaves the count of an earlier run. So the count belongs to the latest run that began
(`step_count_of_latest_begun_call`).
-/
namespace TapeMachine

/-- A write is accepted if cells wrap, or the value fits. -/
theorem CellFormat.isSome_fit?_iff {f : CellFormat} {v : Int} :
    (f.fit? v).isSome ↔ f.overflow = .wrap ∨ f.Fits v := by
  rw [Option.isSome_iff_ne_none, ne_eq, fit?_eq_none_iff]
  cases f.overflow <;> simp

namespace Tape

/-- A tape can be filled exactly if none of the writes is refused. -/
theorem exists_fill_iff {t : Tape} {cells : List (Int × Int)} :
    (∃ t', t.fill cells = .ok t') ↔
      t.format.overflow = .wrap ∨ ∀ c ∈ cells, t.format.Fits c.2 := by
  induction cells generalizing t with
  | nil => simp [fill]
  | cons cell rest ih =>
    rw [List.forall_mem_cons]
    cases hset : t.set cell.1 cell.2 with
    | ok u =>
      have hput := set_eq_ok_iff.1 hset
      obtain ⟨w, hw, -⟩ := put_eq_ok_iff.1 hput
      have haccepted : t.format.overflow = .wrap ∨ t.format.Fits cell.2 :=
        CellFormat.isSome_fit?_iff.1 (Option.isSome_of_eq_some hw)
      have hrest : t.fill (cell :: rest) = u.fill rest := by rw [fill, hset]
      rw [hrest, ih, format_put hput]
      rcases haccepted with hwrap | hfits
      · simp [hwrap]
      · simp [hfits]
    | error e =>
      obtain ⟨o, hput, -⟩ := set_eq_error_iff.1 hset
      obtain ⟨htrap, hn⟩ := CellFormat.fit?_eq_none_iff.1 (put_eq_error_iff.1 hput).1
      simp [fill, hset, htrap, hn]

end Tape

namespace Session

/-- A call of a machine: what is run, the cells that are written first, and the streams, as they stand
when the call is made. -/
structure Call where
  code : Code
  seed : List (Int × Int) := []
  input : Source
  /-- What has been written to the output. -/
  output : String := ""

namespace Call

variable {settings : Settings} {call : Call} {m n : Nat} {stop stop' : Option Stop}

/-- The tape of a call, or the refusal of a cell of its seed. -/
def newTape (settings : Settings) (call : Call) : Except (WriteError × Tape) Tape :=
  ({ format := settings.format } : Tape).fill call.seed

/-- The tape of the call can be seeded. -/
def Begins (settings : Settings) (call : Call) : Prop := ∃ tape, call.newTape settings = .ok tape

/-- The call completes `n` instructions and then ends in the given way. Only the settings of the machine
and the call itself decide this. -/
inductive Completes (settings : Settings) (call : Call) : Nat → Option Stop → Prop where
  | begun (tape : Tape) (n : Nat) (stop : Option Stop) (t : State)
      (seeded : call.newTape settings = .ok tape)
      (ends : Machine.Ends settings call.code n { tape, input := call.input } stop t) :
      Completes settings call n stop
  | refused (e : WriteError) (tape : Tape) (refusal : call.newTape settings = .error (e, tape)) :
      Completes settings call 0 (some e.stop)

theorem begins_iff :
    call.Begins settings ↔ settings.overflow = .wrap ∨ ∀ c ∈ call.seed, settings.format.Fits c.2 :=
  Tape.exists_fill_iff

theorem exists_refusal (h : ¬ call.Begins settings) :
    ∃ o tape, call.newTape settings = .error (o, tape) := by
  cases ht : call.newTape settings with
  | ok tape => exact absurd ⟨tape, ht⟩ h
  | error e => exact ⟨e.1, e.2, rfl⟩

theorem Completes.unique (h : call.Completes settings m stop) (h' : call.Completes settings n stop') :
    m = n ∧ stop = stop' := by
  cases h with
  | begun tape m stop t seeded ends =>
    cases h' with
    | begun tape' n stop' t' seeded' ends' =>
      rw [seeded] at seeded'
      cases seeded'
      obtain ⟨hn, he⟩ := ends.unique ends'
      exact ⟨hn, (Prod.mk.inj he).1⟩
    | refused o tape' refusal =>
      rw [seeded] at refusal
      cases refusal
  | refused o tape refusal =>
    cases h' with
    | begun tape' n stop' t' seeded' ends' =>
      rw [refusal] at seeded'
      cases seeded'
    | refused o' tape' refusal' =>
      rw [refusal] at refusal'
      cases refusal'
      exact ⟨rfl, rfl⟩

end Call

variable {s s' first : Session} {call : Call} {calls earlier later : List Call} {fuel n : Nat}
  {r : SessionRun} {stop : Option Stop}

/-- Serves a call. Of what was before, the machine has its settings and its step count. -/
def serve (s : Session) (call : Call) (fuel : Nat) : Option (SessionRun × Session) :=
  { s with seed := call.seed, input := call.input, output := call.output }.run call.code fuel

/-- The machine after one call after another. -/
def serveAll (s : Session) (fuel : Nat) (calls : List Call) : Option Session :=
  calls.foldlM (fun s call => (s.serve call fuel).map Prod.snd) s

/-- A call whose tape can be seeded is a run of the machine on that tape. -/
theorem serve_eq_some_iff {tape : Tape} (h : call.newTape s.settings = .ok tape) :
    s.serve call fuel = some (r, s') ↔
      ∃ o, Machine.start s.settings call.code tape call.input fuel = some o ∧
        r = ⟨o.stop, o.state.tape, o.log⟩ ∧
        s' = { settings := s.settings, seed := call.seed, input := o.state.input,
               output := call.output ++ o.state.output, lastSteps := o.state.steps } :=
  run_eq_some_iff (s := { s with seed := call.seed, input := call.input, output := call.output }) h

/-- A call whose tape cannot be seeded changes neither the settings nor the count. -/
theorem serve_of_refusal {e : WriteError} {tape : Tape}
    (h : call.newTape s.settings = .error (e, tape)) (fuel : Nat) :
    ∃ r s', s.serve call fuel = some (r, s') ∧ s'.settings = s.settings ∧
      call.Completes s.settings 0 r.stop ∧ s'.lastSteps = s.lastSteps :=
  ⟨_, _, run_of_fill_error call.code fuel h, rfl, .refused e tape h, rfl⟩

/-- A call that begins leaves the number of instructions it has completed; any other leaves the count
as it was. -/
theorem serve_cases (h : s.serve call fuel = some (r, s')) :
    s'.settings = s.settings ∧
      (call.Begins s.settings ∧ call.Completes s.settings s'.lastSteps r.stop ∨
        ¬ call.Begins s.settings ∧ s'.lastSteps = s.lastSteps) := by
  cases hseed : call.newTape s.settings with
  | error e =>
    obtain ⟨r', s'', hserve, hsettings, -, hsteps⟩ := serve_of_refusal hseed fuel
    rw [h] at hserve
    cases hserve
    refine ⟨hsettings, .inr ⟨?_, hsteps⟩⟩
    rintro ⟨tape, ht⟩
    rw [hseed] at ht
    cases ht
  | ok tape =>
    obtain ⟨o, ho, rfl, rfl⟩ := (serve_eq_some_iff hseed).1 h
    obtain ⟨n, hn⟩ := Machine.ends_of_run ho
    have hsteps : o.state.steps = n := (Machine.steps_of_ends hn).trans (Nat.zero_add n)
    exact ⟨rfl, .inl ⟨⟨tape, hseed⟩, .begun tape _ _ _ hseed (hsteps ▸ hn)⟩⟩

/-- With enough fuel, a call that begins is served if it ends at all, and its count is left. -/
theorem exists_serve_iff (hbegins : call.Begins s.settings) :
    (∃ fuel r s', s.serve call fuel = some (r, s') ∧ r.stop = stop ∧ s'.lastSteps = n) ↔
      call.Completes s.settings n stop := by
  constructor
  · rintro ⟨fuel, r, s', hserve, rfl, rfl⟩
    obtain ⟨-, ⟨-, hcompletes⟩ | ⟨hnot, -⟩⟩ := serve_cases hserve
    · exact hcompletes
    · exact absurd hbegins hnot
  · rintro (⟨tape, n, stop, t, hseed, hends⟩ | ⟨o, tape, hrefusal⟩)
    · obtain ⟨fuel, o, ho, rfl, rfl⟩ :=
        (Machine.exists_run_iff_ends _ #[.start call.code.size s.settings.strictLoops]).2 ⟨n, hends⟩
      refine ⟨fuel, _, _, (serve_eq_some_iff hseed).2 ⟨o, ho, rfl, rfl⟩, rfl, ?_⟩
      exact (Machine.steps_of_ends hends).trans (Nat.zero_add n)
    · obtain ⟨tape', hseed⟩ := hbegins
      rw [hrefusal] at hseed
      cases hseed

theorem serveAll_cons (s : Session) (fuel : Nat) (call : Call) (calls : List Call) :
    s.serveAll fuel (call :: calls) = (s.serve call fuel).bind fun x => x.2.serveAll fuel calls := by
  rw [serveAll, List.foldlM_cons]
  cases s.serve call fuel <;> rfl

theorem settings_of_serveAll (h : first.serveAll fuel calls = some s) : s.settings = first.settings := by
  induction calls generalizing first with
  | nil => exact Option.some.inj h ▸ rfl
  | cons call calls ih =>
    rw [serveAll_cons] at h
    obtain ⟨⟨r, next⟩, hserve, hrest⟩ := Option.bind_eq_some_iff.1 h
    exact (ih hrest).trans (serve_cases hserve).1

/-- Calls that do not begin leave the count as it was, however many they are. -/
theorem lastSteps_of_none_begins (h : first.serveAll fuel calls = some s)
    (hnone : ∀ c ∈ calls, ¬ c.Begins first.settings) : s.lastSteps = first.lastSteps := by
  induction calls generalizing first with
  | nil => exact Option.some.inj h ▸ rfl
  | cons call calls ih =>
    rw [serveAll_cons] at h
    obtain ⟨⟨r, next⟩, hserve, hrest⟩ := Option.bind_eq_some_iff.1 h
    obtain ⟨hsettings, ⟨hbegins, -⟩ | ⟨-, hsteps⟩⟩ := serve_cases hserve
    · exact absurd hbegins (hnone call List.mem_cons_self)
    · rw [ih hrest, hsteps]
      intro c hc
      rw [hsettings]
      exact hnone c (List.mem_cons_of_mem call hc)

/-- The count is that of the latest call that began. -/
theorem completes_of_latest_begun (h : first.serveAll fuel (earlier ++ call :: later) = some s)
    (hbegins : call.Begins first.settings) (hlater : ∀ c ∈ later, ¬ c.Begins first.settings) :
    ∃ stop, call.Completes first.settings s.lastSteps stop := by
  rw [serveAll, List.foldlM_append] at h
  obtain ⟨mid, hearlier, hrest⟩ := Option.bind_eq_some_iff.1 h
  have hmid : mid.settings = first.settings := settings_of_serveAll hearlier
  change mid.serveAll fuel (call :: later) = some s at hrest
  rw [serveAll_cons] at hrest
  obtain ⟨⟨r, next⟩, hserve, hlast⟩ := Option.bind_eq_some_iff.1 hrest
  obtain ⟨hnext, ⟨-, hcompletes⟩ | ⟨hnot, -⟩⟩ := serve_cases hserve
  · rw [hmid] at hnext hcompletes
    refine ⟨r.stop, ?_⟩
    rw [lastSteps_of_none_begins hlast (by rwa [hnext])]
    exact hcompletes
  · exact absurd (hmid ▸ hbegins) hnot

/-- The step count belongs to the latest call that began, whatever was before. After any calls, a further
call whose tape can be seeded ends in a way and with a count exactly if it completes as many instructions
and ends so, which the earlier calls do not decide. A call whose tape cannot be seeded, because a value
does not fit into cells that refuse it, completes none, and leaves the count of the latest call that began,
or zero if none has. -/
theorem step_count_of_latest_begun_call (settings : Settings) (input : Source) (calls : List Call)
    (fuel : Nat) (s : Session)
    (h : ({ settings, input } : Session).serveAll fuel calls = some s) :
    (∀ call : Call, call.Begins settings ↔
      settings.overflow = .wrap ∨ ∀ c ∈ call.seed, settings.format.Fits c.2) ∧
    (∀ (call : Call) m n stop stop', call.Completes settings m stop →
      call.Completes settings n stop' → m = n ∧ stop = stop') ∧
    (∀ call : Call, call.Begins settings → ∀ n stop,
      (∃ more r s', s.serve call more = some (r, s') ∧ r.stop = stop ∧ s'.lastSteps = n) ↔
        call.Completes settings n stop) ∧
    (∀ call : Call, ¬ call.Begins settings → ∀ more, ∃ r s', s.serve call more = some (r, s') ∧
      call.Completes settings 0 r.stop ∧ s'.lastSteps = s.lastSteps) ∧
    ((∀ c ∈ calls, ¬ c.Begins settings) → s.lastSteps = 0) ∧
    ∀ earlier call later, calls = earlier ++ call :: later → call.Begins settings →
      (∀ c ∈ later, ¬ c.Begins settings) → ∃ stop, call.Completes settings s.lastSteps stop := by
  have hsettings : s.settings = settings := settings_of_serveAll h
  refine ⟨fun _ => Call.begins_iff, fun _ _ _ _ _ => Call.Completes.unique, ?_, ?_,
    lastSteps_of_none_begins h, ?_⟩
  · intro call hbegins n stop
    subst hsettings
    exact exists_serve_iff hbegins
  · intro call hnot more
    subst hsettings
    obtain ⟨o, tape, hrefusal⟩ := Call.exists_refusal hnot
    obtain ⟨r, s', hserve, -, hcompletes, hsteps⟩ := serve_of_refusal hrefusal more
    exact ⟨r, s', hserve, hcompletes, hsteps⟩
  · rintro earlier call later rfl hbegins hlater
    exact completes_of_latest_begun h hbegins hlater

/-- `++]` on a tape whose first cell is 5 completes two instructions and fails. After a call whose seed
does not fit, and after another one, its count is still there; `>` then counts its own instruction. -/
theorem step_count_of_latest_begun_call_refused :
    let settings : Settings := { cellBits := 8, overflow := .trap }
    let input := Source.ofText []
    let failing : Call :=
      { code := #[.op .increment, .op .increment, .op .loopClose], seed := [(0, 5)], input }
    let refused : Call := { code := #[.op .increment], seed := [(1, 5), (0, 128)], input }
    let move : Call := { code := #[.op .moveRight], input }
    ∃ s, ({ settings, input } : Session).serveAll 3 [failing, refused] = some s ∧
      (∃ stop, failing.Completes settings 2 stop) ∧
      (∃ r s', s.serve refused 3 = some (r, s') ∧ refused.Completes settings 0 r.stop ∧
        s'.lastSteps = 2) ∧
      move.Completes settings 1 none := by
  intro settings input failing refused move
  let s : Session := { settings, seed := refused.seed, input, lastSteps := 2 }
  have hs : ({ settings, input } : Session).serveAll 3 [failing, refused] = some s := rfl
  obtain ⟨hbegins, -, hserved, hrefused, -, hlatest⟩ :=
    step_count_of_latest_begun_call settings input [failing, refused] 3 s hs
  have hnot : ¬ refused.Begins settings := by
    rw [hbegins]
    decide
  refine ⟨s, hs, ?_, hrefused refused hnot 3, ?_⟩
  · refine hlatest [] failing [refused] rfl ⟨_, rfl⟩ ?_
    intro c hc
    exact List.mem_singleton.1 hc ▸ hnot
  · exact (hserved move ⟨_, rfl⟩ 1 none).1 ⟨2, _, _, rfl, rfl, rfl⟩

/-- After `++++`, a call whose seed does not fit has completed nothing, and yet the count says four. -/
theorem refused_call_shows_older_count :
    let settings : Settings := { cellBits := 8, overflow := .trap }
    let input := Source.ofText []
    let four : Call :=
      { code := #[.op .increment, .op .increment, .op .increment, .op .increment], input }
    let refused : Call := { code := #[.op .increment], seed := [(0, 128)], input }
    ∃ s r s', ({ settings, input } : Session).serveAll 5 [four] = some s ∧
      s.serve refused 5 = some (r, s') ∧ refused.Completes settings 0 r.stop ∧
      s'.lastSteps = 4 ∧ ∀ stop, ¬ refused.Completes settings s'.lastSteps stop := by
  intro settings input four refused
  let s : Session := { settings, input, lastSteps := 4 }
  have hs : ({ settings, input } : Session).serveAll 5 [four] = some s := rfl
  have hrefusal : refused.newTape settings =
      .error (Overflow.raised ⟨0, 128, 8⟩, { format := settings.format }) := rfl
  obtain ⟨r, s', hserve, -, hcompletes, hsteps⟩ := serve_of_refusal (s := s) hrefusal 5
  refine ⟨s, r, s', hs, hserve, hcompletes, hsteps, ?_⟩
  intro stop h
  have hzero : 0 = s'.lastSteps := (hcompletes.unique h).1
  rw [hsteps] at hzero
  cases hzero

end Session

end TapeMachine
