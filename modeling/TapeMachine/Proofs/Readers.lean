import TapeMachine.Proofs.SessionRuns
import TapeMachine.Reader

/-!
Readers of the same text. Whether a text is handed out in pieces, however it is cut, or from a stream, the
readings give its code points one by one and then nothing for ever; and a session cannot tell which of
these readers it was given (`Session.readers_interchangeable`).
-/
namespace TapeMachine

namespace Reader

/-- The readers over a text: of any pieces that make it up, or of a stream that holds it. -/
inductive Over (text : Text) : Reader → Prop where
  | pieces (pieces : List Text) (joined : pieces.flatten = text) : Over text (ofPieces pieces)
  | stream : Over text (ofStream text)

theorem Over.remaining_source {text : Text} {r : Reader} (h : Over text r) :
    r.source.remaining = text := by
  cases h with
  | pieces pieces joined => exact joined
  | stream => simp [Source.ofText, Source.remaining]

theorem ending_source (r : Reader) : r.source.ending = .exhausted := rfl

/-- A reading takes the first code point of what has not been handed out. -/
theorem read_eq (r : Reader) :
    r.read.1 = r.source.remaining.head? ∧ r.read.2.source.remaining = r.source.remaining.tail := by
  obtain ⟨hread, hleft, -⟩ := r.source.read_eq
  rw [read_source] at hread hleft
  refine ⟨?_, hleft⟩
  cases hr : r.source.remaining with
  | nil =>
    rw [hr, ending_source] at hread
    exact Except.ok.inj hread
  | cons c rest =>
    rw [hr] at hread
    exact Except.ok.inj hread

/-- The readings give what is left one by one, and then nothing for ever. -/
theorem answers_eq (r : Reader) (n : Nat) :
    r.answers n = (r.source.remaining.take n).map some ++
      List.replicate (n - r.source.remaining.length) none := by
  induction n generalizing r with
  | zero => simp [answers]
  | succ n ih =>
    obtain ⟨hread, hleft⟩ := r.read_eq
    rw [answers, ih, hread, hleft]
    cases r.source.remaining with
    | nil => simp [List.replicate_succ]
    | cons c rest => simp

end Reader

namespace Session

open Machine

variable {s s' t : Session} {fuel : Nat}

/-- Two sessions that differ only in how the text that is still unread is cut. -/
structure Alike (s t : Session) : Prop where
  same_but_input : t = { s with input := t.input }
  input : Source.Extends [] s.input t.input

theorem Alike.symm (h : Alike s t) : Alike t s :=
  ⟨by rw [h.same_but_input], h.input.symm⟩

/-- The same session with the unread text in one piece. -/
def recut (s : Session) : Session :=
  { s with input := { chunks := [s.input.remaining], ending := s.input.ending } }

theorem Alike.recut_eq (h : Alike s t) : s.recut = t.recut := by
  have hleft : t.input.remaining = s.input.remaining := by
    rw [h.input.remaining_eq, List.append_nil]
  have hending : t.input.ending = s.input.ending := h.input.ending_eq rfl
  rw [recut, recut, hleft, hending, h.same_but_input]

/-- A run does not depend on how its input is cut. -/
theorem Alike.run {code : Code} {r : SessionRun} (h : Alike s t)
    (hr : s.run code fuel = some (r, s')) :
    ∃ t', t.run code fuel = some (r, t') ∧ Alike s' t' := by
  obtain ⟨hsame, hinput⟩ := h
  have hsettings : t.settings = s.settings := by rw [hsame]
  have hseed : t.seed = s.seed := by rw [hsame]
  cases hfill : ({ format := s.settings.format } : Tape).fill s.seed with
  | error refusal =>
    have hfill' : ({ format := t.settings.format } : Tape).fill t.seed = .error refusal := by
      rw [hsettings, hseed, hfill]
    rw [run_of_fill_error code fuel hfill] at hr
    cases hr
    exact ⟨t, run_of_fill_error code fuel hfill', hsame, hinput⟩
  | ok tape =>
    have hfill' : ({ format := t.settings.format } : Tape).fill t.seed = .ok tape := by
      rw [hsettings, hseed, hfill]
    obtain ⟨o, ho, rfl, rfl⟩ := (run_eq_some_iff hfill).1 hr
    have hstart : Ahead [] { tape, input := s.input } { tape, input := t.input } := ⟨rfl, hinput⟩
    obtain ⟨o', ho', hstop, hlog, hstate⟩ := hstart.run ho (.inl rfl)
    rw [← hsettings] at ho'
    have hrun := (run_eq_some_iff hfill').2 ⟨o', ho', rfl, rfl⟩
    rw [hstop, hlog, hstate.same_but_input] at hrun
    refine ⟨_, hrun, ?_, hstate.input⟩
    rw [hsame]
    rfl

theorem Alike.perform {op : Operation} {answer : Answer} (h : Alike s t)
    (hp : s.perform fuel op = some (answer, s')) :
    ∃ t', t.perform fuel op = some (answer, t') ∧ Alike s' t' := by
  cases op with
  | run code =>
    obtain ⟨⟨r, after⟩, hr, he⟩ := Option.map_eq_some_iff.1 hp
    cases he
    obtain ⟨t', ht', halike⟩ := h.run hr
    exact ⟨t', Option.map_eq_some_iff.2 ⟨(r, t'), ht', rfl⟩, halike⟩
  | seed cells =>
    cases Option.some.inj hp
    exact ⟨_, rfl, by rw [h.same_but_input], h.input⟩
  | read =>
    cases Option.some.inj hp
    obtain ⟨hread, hleft⟩ := h.input.read (.inl rfl)
    have hanswer : t.read.1 = s.read.1 := hread
    refine ⟨t.read.2, by rw [Session.perform, hanswer], ?_, hleft⟩
    rw [h.same_but_input]
    rfl
  | write text =>
    cases Option.some.inj hp
    exact ⟨_, rfl, by rw [h.same_but_input]; rfl, h.input⟩

theorem Alike.performAll {ops : List Operation} {answers : List Answer} (h : Alike s t)
    (hp : s.performAll fuel ops = some (answers, s')) :
    ∃ t', t.performAll fuel ops = some (answers, t') ∧ Alike s' t' := by
  induction ops generalizing s t answers with
  | nil =>
    cases Option.some.inj hp
    exact ⟨t, rfl, h⟩
  | cons op ops ih =>
    obtain ⟨⟨answer, after⟩, hop, hrest⟩ := Option.bind_eq_some_iff.1 hp
    obtain ⟨⟨more, last⟩, hops, he⟩ := Option.bind_eq_some_iff.1 hrest
    cases Option.some.inj he
    obtain ⟨after', hop', halike⟩ := h.perform hop
    obtain ⟨last', hops', halike'⟩ := ih halike hops
    refine ⟨last', ?_, halike'⟩
    simp only [Session.performAll, hop', hops', bind, Option.bind, pure]

/-- What a session comes to, with the text that is left in one piece: either nothing yet, or the answers
and the session after them. -/
def result (s : Session) (fuel : Nat) (ops : List Operation) : Option (List Answer × Session) :=
  (s.performAll fuel ops).map fun (answers, last) => (answers, last.recut)

theorem Alike.result_eq (h : Alike s t) (fuel : Nat) (ops : List Operation) :
    s.result fuel ops = t.result fuel ops := by
  have himp : ∀ {s t : Session} {x : List Answer × Session}, Alike s t →
      s.result fuel ops = some x → t.result fuel ops = some x := by
    intro s t x h hs
    obtain ⟨⟨answers, last⟩, hp, rfl⟩ := Option.map_eq_some_iff.1 hs
    obtain ⟨last', hp', halike⟩ := h.performAll hp
    exact Option.map_eq_some_iff.2 ⟨(answers, last'), hp', by simp only [halike.recut_eq]⟩
  apply Option.ext
  intro x
  exact ⟨himp h, himp h.symm⟩

/-- Readers over the same text are interchangeable. Any number of readings gives the code points of the
text one by one, and then nothing for ever. A session reads as its reader does; so whatever is done in it,
runs that fail or never end included, comes to the same answers, output, step count and unread text,
whichever reader it was given. -/
theorem readers_interchangeable (text : Text) (a b : Reader) (ha : Reader.Over text a)
    (hb : Reader.Over text b) :
    (∀ n, a.answers n = (text.take n).map some ++ List.replicate (n - text.length) none ∧
      b.answers n = a.answers n) ∧
    (∀ r : Reader, r.source.read = (.ok r.read.1, r.read.2.source)) ∧
    ∀ (session : Session) (fuel : Nat) (ops : List Operation),
      { session with input := a.source }.result fuel ops =
        { session with input := b.source }.result fuel ops := by
  have hremaining : a.source.remaining = b.source.remaining := by
    rw [ha.remaining_source, hb.remaining_source]
  refine ⟨?_, Reader.read_source, ?_⟩
  · intro n
    rw [Reader.answers_eq, Reader.answers_eq, hremaining, hb.remaining_source]
    exact ⟨rfl, rfl⟩
  · intro session fuel ops
    have halike : Alike { session with input := a.source } { session with input := b.source } :=
      ⟨rfl, by rw [List.append_nil, hremaining], fun _ => rfl⟩
    exact halike.result_eq fuel ops

/-- A reader of `a` and `b` among empty pieces, and a reader of the stream `ab`: after `,.` and a reading,
the text is used up, and the next `,.` fails. -/
theorem readers_interchangeable_gaps :
    let text := Text.ofString "ab"
    let a := Reader.ofPieces [[], Text.ofString "a", [], Text.ofString "b", []]
    let b := Reader.ofStream text
    let session : Session := { settings := {}, input := { chunks := [] } }
    let ops : List Operation :=
      [.run #[.op .input, .op .output], .read, .run #[.op .input, .op .output]]
    Reader.Over text a ∧ Reader.Over text b ∧
      b.answers 4 = [some (CodePoint.ofChar 'a'), some (CodePoint.ofChar 'b'), none, none] ∧
      ∃ answers last, { session with input := a.source }.result 3 ops = some (answers, last) ∧
        { session with input := b.source }.result 3 ops = some (answers, last) ∧
        answers[1]? = some (.char (.ok (some (CodePoint.ofChar 'b')))) ∧
        last.output = "a" ∧ last.lastSteps = 0 ∧ last.input.remaining = [] := by
  intro text a b session ops
  have ha : Reader.Over text a := .pieces _ rfl
  have hb : Reader.Over text b := .stream
  obtain ⟨hanswers, -, hsession⟩ := readers_interchangeable text a b ha hb
  refine ⟨ha, hb, ?_, ?_⟩
  · rw [(hanswers 4).2, (hanswers 4).1]
    rfl
  · obtain ⟨answers, last, hresult, hsecond, hout, hsteps, hleft⟩ :
        ∃ answers last, { session with input := b.source }.result 3 ops = some (answers, last) ∧
          answers[1]? = some (.char (.ok (some (CodePoint.ofChar 'b')))) ∧
          last.output = "a" ∧ last.lastSteps = 0 ∧ last.input.remaining = [] :=
      ⟨_, _, rfl, rfl, rfl, rfl, rfl⟩
    exact ⟨answers, last, (hsession session 3 ops).trans hresult, hresult, hsecond, hout, hsteps, hleft⟩

end Session

end TapeMachine
