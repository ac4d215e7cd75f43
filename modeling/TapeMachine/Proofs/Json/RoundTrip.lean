import TapeMachine.Proofs.Json.Token

/-!
Values of JSON, written in any layout and read back (`parse?_render`). Numbers with a fraction are left
out, and the limits of reading apply: the length of an integer, and how many containers stand inside
one another.
-/
namespace TapeMachine.Json

/-- A value that can be read once it has been written: its integers are short enough, and at most
`depth` containers stand inside one another. -/
inductive Readable : Nat → Json → Prop where
  | null {depth : Nat} : Readable depth .null
  | bool {depth : Nat} (b : Bool) : Readable depth (.bool b)
  | int {depth : Nat} (n : Int) (short : (toString n).length ≤ maxIntegerLength) :
      Readable depth (.int n)
  | str {depth : Nat} (s : String) : Readable depth (.str s)
  | arr {depth : Nat} (items : List Json) (inside : ∀ j ∈ items, Readable depth j) :
      Readable (depth + 1) (.arr items)
  | obj {depth : Nat} (members : List (String × Json)) (inside : ∀ m ∈ members, Readable depth m.2) :
      Readable (depth + 1) (.obj members)

variable {depth fuel level : Nat} {j : Json} {l : Layout} {cs sp gap closing text rest : List Char}

section Spaces

/-- A text of spaces only. -/
def Spaces (cs : List Char) : Prop := ∀ c ∈ cs, isSpace c = true

theorem spaces_nil : Spaces [] := by simp [Spaces]

theorem spaces_lineBreak (l : Layout) (level : Nat) : Spaces (l.lineBreak level).toList := by
  unfold Layout.lineBreak Spaces
  cases l.indent with
  | none => simp
  | some n =>
    intro c hc
    simp only [String.toList_ofList, List.mem_cons, List.mem_replicate] at hc
    obtain rfl | ⟨-, rfl⟩ := hc <;> rfl

/-- A colon, and spaces after it. -/
theorem toList_colon (l : Layout) : ∃ sp, l.colon.toList = ':' :: sp ∧ Spaces sp := by
  unfold Layout.colon
  split
  · exact ⟨[' '], by simp, by simp [Spaces, isSpace]⟩
  · exact ⟨[], by simp, spaces_nil⟩

theorem skipSpace_append (h : Spaces sp) : skipSpace (sp ++ cs) = skipSpace cs :=
  List.dropWhile_append_of_pos h

theorem skipSpace_cons {c : Char} (h : isSpace c = false) : skipSpace (c :: cs) = c :: cs :=
  List.dropWhile_cons_of_neg (by simp [h])

theorem delimited_comma (rest : List Char) : Delimited (',' :: rest) := by
  rintro c ⟨⟩
  decide

/-- Spaces and the end of a container end an integer. -/
theorem delimited_closing {c : Char} (hs : Spaces sp) (hc : c = ']' ∨ c = '\x7d') (rest : List Char) :
    Delimited (sp ++ c :: rest) := by
  cases sp with
  | nil =>
    rintro d ⟨⟩
    rcases hc with rfl | rfl <;> decide
  | cons s sp =>
    have hspace := hs s (by simp)
    simp only [isSpace, Bool.or_eq_true, beq_iff_eq] at hspace
    rintro d ⟨⟩
    rcases hspace with ((rfl | rfl) | rfl) | rfl <;> decide

end Spaces

section Beginnings

/-- The beginning of a value or a member: no space, and no end of a container. -/
def Begins (cs : List Char) : Prop :=
  ∃ c rest, cs = c :: rest ∧ isSpace c = false ∧ c ≠ ']' ∧ c ≠ '\x7d'

theorem Begins.skipSpace_append (h : Begins text) : skipSpace (text ++ rest) = text ++ rest := by
  obtain ⟨c, cs, rfl, hc, -, -⟩ := h
  exact skipSpace_cons hc

theorem Begins.intercalate {sep : List Char} (h : Begins text) (texts : List (List Char)) :
    Begins (sep.intercalate (text :: texts)) := by
  obtain ⟨c, cs, rfl, hc⟩ := h
  exact ⟨c, sep.intercalate (cs :: texts), List.intercalate_cons_cons_left, hc⟩

/-- The text of an integer begins with a minus sign or a digit. -/
theorem head_toString (n : Int) :
    ∃ c cs, (toString n).toList = c :: cs ∧ (c.toNat = 45 ∨ 48 ≤ c.toNat ∧ c.toNat < 58) := by
  obtain ⟨negative, m, ds, -, hd, hs⟩ := Numeral.toString_cases n
  cases negative with
  | true => exact ⟨'-', ds, hs, .inl rfl⟩
  | false =>
    obtain ⟨c, cs, rfl⟩ := List.exists_cons_of_ne_nil hd.ne_nil
    exact ⟨c, cs, hs, .inr (hd.range c (by simp))⟩

theorem ne_of_numeral {c d : Char} (hc : c.toNat = 45 ∨ 48 ≤ c.toNat ∧ c.toNat < 58)
    (hd : d.toNat ≠ 45 ∧ (d.toNat < 48 ∨ 58 ≤ d.toNat)) : c ≠ d := by
  rintro rfl
  omega

theorem begins_toString (n : Int) : Begins (toString n).toList := by
  obtain ⟨c, cs, hs, hc⟩ := head_toString n
  refine ⟨c, cs, hs, ?_, ne_of_numeral hc (by decide), ne_of_numeral hc (by decide)⟩
  simp only [isSpace, Bool.or_eq_false_iff, beq_eq_false_iff_ne]
  exact ⟨⟨⟨ne_of_numeral hc (by decide), ne_of_numeral hc (by decide)⟩,
    ne_of_numeral hc (by decide)⟩, ne_of_numeral hc (by decide)⟩

theorem toList_quote (s : String) :
    (quote s).toList = '"' :: (s.toList.flatMap escapeChar ++ ['"']) := by
  simp [quote]

theorem toList_block (l : Layout) (level : Nat) (opening closing : String) {items : List String}
    (h : items ≠ []) :
    (l.block level opening closing items).toList =
      opening.toList ++ ((l.lineBreak (level + 1)).toList ++
        ((',' :: (l.lineBreak (level + 1)).toList).intercalate (items.map String.toList) ++
          ((l.lineBreak level).toList ++ closing.toList))) := by
  have he : items.isEmpty = false := by simpa using h
  simp [Layout.block, he, String.toList_intercalate]

/-- A container begins with its opening bracket. -/
theorem exists_toList_block (l : Layout) (level : Nat) (opening closing : String)
    (items : List String) : ∃ cs, (l.block level opening closing items).toList = opening.toList ++ cs := by
  by_cases h : items = []
  · exact ⟨closing.toList, by simp [h, Layout.block]⟩
  · exact ⟨_, toList_block l level opening closing h⟩

theorem begins_render (h : Readable depth j) (l : Layout) (level : Nat) :
    Begins (renderAt l level j).toList := by
  cases h with
  | null => exact ⟨'n', ['u', 'l', 'l'], by simp [renderAt], by decide⟩
  | bool b =>
    cases b
    · exact ⟨'f', ['a', 'l', 's', 'e'], by simp [renderAt], by decide⟩
    · exact ⟨'t', ['r', 'u', 'e'], by simp [renderAt], by decide⟩
  | int n short => exact begins_toString n
  | str s => exact ⟨'"', _, toList_quote s, by decide⟩
  | arr items inside =>
    obtain ⟨cs, hcs⟩ := exists_toList_block l level "[" "]" (renderItems l (level + 1) items)
    exact ⟨'[', cs, by simpa [renderAt] using hcs, by decide⟩
  | obj members inside =>
    obtain ⟨cs, hcs⟩ := exists_toList_block l level "\x7b" "\x7d" (renderMembers l (level + 1) members)
    exact ⟨'\x7b', cs, by simpa [renderAt] using hcs, by decide⟩

end Beginnings

section Containers

/-- A value is read from a text, whatever follows it. -/
def Reads (depth : Nat) (j : Json) (text : List Char) : Prop :=
  ∀ fuel rest, text.length ≤ fuel → Delimited rest →
    value (fuel + 1) depth (text ++ rest) = some (j, rest)

/-- How a container is read: `read` reads its elements, goes on after a comma and ends at the closing
bracket, where `At` says that an element stands at the beginning of a text and what follows it. -/
structure Container {α : Type} (depth : Nat) (opener closer : Char) (wrap : List α → Json)
    (At : Nat → List Char → α → List Char → Prop)
    (read : Nat → List Char → Option (List α × List Char)) : Prop where
  closer_eq : closer = ']' ∨ closer = '\x7d'
  enter : ∀ {fuel cs text rest as r}, Begins text → skipSpace cs = text ++ rest →
    read fuel (text ++ rest) = some (as, r) →
      value (fuel + 1) (depth + 1) (opener :: cs) = some (wrap as, r)
  last : ∀ {fuel cs a rest r}, At fuel cs a rest → skipSpace rest = closer :: r →
    read (fuel + 1) cs = some ([a], r)
  more : ∀ {fuel cs a rest r as r'}, At fuel cs a rest → skipSpace rest = ',' :: r →
    read fuel r = some (as, r') → read (fuel + 1) cs = some (a :: as, r')

/-- A text of an element, wherever it stands. -/
structure Stands {α : Type} (At : Nat → List Char → α → List Char → Prop) (a : α) (text : List Char) :
    Prop where
  begins : Begins text
  at_front : ∀ fuel sp rest, Spaces sp → text.length < fuel → Delimited rest →
    At fuel (sp ++ (text ++ rest)) a rest

namespace Container

variable {α : Type} {opener closer : Char} {wrap : List α → Json}
  {At : Nat → List Char → α → List Char → Prop}
  {read : Nat → List Char → Option (List α × List Char)} {as : List α}

/-- Elements that are set apart by commas and spaces are read one after another. -/
theorem read_intercalate (h : Container depth opener closer wrap At read) (text : α → List Char)
    (hne : as ≠ []) (hstands : ∀ a ∈ as, Stands At a (text a)) (hsp : Spaces sp) (hgap : Spaces gap)
    (hclosing : Spaces closing)
    (hf : ((',' :: gap).intercalate (as.map text)).length + 1 < fuel) :
    read fuel (sp ++ ((',' :: gap).intercalate (as.map text) ++ (closing ++ closer :: rest))) =
      some (as, rest) := by
  induction as generalizing fuel sp with
  | nil => exact absurd rfl hne
  | cons a as ih =>
    obtain ⟨n, rfl⟩ : ∃ n, fuel = n + 1 := ⟨fuel - 1, by omega⟩
    have ha := (hstands a (by simp)).at_front n sp
    cases as with
    | nil =>
      simp only [List.map_cons, List.map_nil, List.intercalate_singleton] at hf ⊢
      have hc : isSpace closer = false := by rcases h.closer_eq with he | he <;> rw [he] <;> rfl
      refine h.last (ha _ hsp (by omega) (delimited_closing hclosing h.closer_eq rest)) ?_
      rw [skipSpace_append hclosing, skipSpace_cons hc]
    | cons b as =>
      rw [List.map_cons, List.map_cons, List.intercalate_cons_cons, ← List.map_cons] at hf ⊢
      simp only [List.length_append, List.length_cons] at hf
      have hrest : read n (gap ++ ((',' :: gap).intercalate ((b :: as).map text) ++
          (closing ++ closer :: rest))) = some (b :: as, rest) :=
        ih (by simp) (fun c hc => hstands c (by simp [hc])) hgap (by omega)
      rw [List.append_assoc, List.append_assoc]
      exact h.more (ha _ hsp (by omega) (delimited_comma _)) (skipSpace_cons rfl) hrest

/-- A container that is not empty is read from its text. -/
theorem reads (h : Container depth opener closer wrap At read) (text : α → List Char)
    (hne : as ≠ []) (hstands : ∀ a ∈ as, Stands At a (text a)) (hgap : Spaces gap)
    (hclosing : Spaces closing) :
    Reads (depth + 1) (wrap as)
      (opener :: (gap ++ ((',' :: gap).intercalate (as.map text) ++ (closing ++ [closer])))) := by
  intro fuel rest hf _
  obtain ⟨a, as', rfl⟩ := List.exists_cons_of_ne_nil hne
  have hb : Begins ((',' :: gap).intercalate ((a :: as').map text)) :=
    (hstands a (by simp)).begins.intercalate _
  simp only [List.length_cons, List.length_append] at hf
  have hread : read fuel ((',' :: gap).intercalate ((a :: as').map text) ++
      (closing ++ closer :: rest)) = some (a :: as', rest) :=
    h.read_intercalate text hne hstands spaces_nil hgap hclosing (by omega)
  simp only [List.cons_append, List.append_assoc, List.nil_append]
  refine h.enter hb ?_ hread
  rw [skipSpace_append hgap, hb.skipSpace_append]

end Container

/-- An item stands at the beginning of a text, after spaces. -/
def ItemAt (depth fuel : Nat) (cs : List Char) (j : Json) (rest : List Char) : Prop :=
  value fuel depth (skipSpace cs) = some (j, rest)

theorem arrays (depth : Nat) :
    Container depth '[' ']' .arr (ItemAt depth) (items · depth ·) where
  closer_eq := .inl rfl
  enter hb hs hi := by
    obtain ⟨c, t, rfl, -, hc, -⟩ := hb
    simp only [value, hs, List.cons_append] at hi ⊢
    rw [if_neg (by omega)]
    split
    next he => exact absurd (List.cons.inj he).1 hc
    next => simp [hi]
  last hv hr := by
    rw [ItemAt] at hv
    simp only [items, hv, hr, Option.bind_eq_bind, Option.bind_some, Option.pure_def]
  more hv hr hi := by
    rw [ItemAt] at hv
    simp only [items, hv, hr, hi, Option.bind_eq_bind, Option.bind_some, Option.pure_def]

/-- A member stands at the beginning of a text, after spaces. -/
def MemberAt (depth fuel : Nat) (cs : List Char) (m : String × Json) (rest : List Char) : Prop :=
  ∃ r₁ r₂, skipSpace cs = '"' :: (m.1.toList.flatMap escapeChar ++ '"' :: r₁) ∧
    skipSpace r₁ = ':' :: r₂ ∧ value fuel depth (skipSpace r₂) = some (m.2, rest)

theorem objects (depth : Nat) :
    Container depth '\x7b' '\x7d' .obj (MemberAt depth) (members · depth ·) where
  closer_eq := .inr rfl
  enter hb hs hi := by
    obtain ⟨c, t, rfl, -, -, hc⟩ := hb
    simp only [value, hs, List.cons_append] at hi ⊢
    rw [if_neg (by omega)]
    split
    next he => exact absurd (List.cons.inj he).1 hc
    next => simp [hi]
  last hm hr := by
    obtain ⟨r₁, r₂, hk, hc, hv⟩ := hm
    simp only [members, hk, stringBody_quoted, hc, hv, hr, Option.bind_eq_bind, Option.bind_some,
      Option.pure_def, String.ofList_toList]
  more hm hr hi := by
    obtain ⟨r₁, r₂, hk, hc, hv⟩ := hm
    simp only [members, hk, stringBody_quoted, hc, hv, hr, hi, Option.bind_eq_bind,
      Option.bind_some, Option.pure_def, String.ofList_toList]

/-- The text of a member. -/
def memberText (l : Layout) (level : Nat) (m : String × Json) : List Char :=
  (quote m.1 ++ l.colon ++ renderAt l level m.2).toList

theorem map_renderItems (l : Layout) (level : Nat) (js : List Json) :
    (renderItems l level js).map String.toList = js.map fun j => (renderAt l level j).toList := by
  induction js with
  | nil => rfl
  | cons j js ih => simp [renderItems, ih]

theorem map_renderMembers (l : Layout) (level : Nat) (ms : List (String × Json)) :
    (renderMembers l level ms).map String.toList = ms.map (memberText l level) := by
  induction ms with
  | nil => rfl
  | cons m ms ih => simp [renderMembers, memberText, ih]

theorem item_stands (hb : Begins text) (h : Reads depth j text) : Stands (ItemAt depth) j text := by
  refine ⟨hb, ?_⟩
  intro fuel sp rest hsp hf hr
  obtain ⟨n, rfl⟩ : ∃ n, fuel = n + 1 := ⟨fuel - 1, by omega⟩
  rw [ItemAt, skipSpace_append hsp, hb.skipSpace_append]
  exact h n rest (by omega) hr

theorem member_stands {m : String × Json} (hb : Begins (renderAt l level m.2).toList)
    (h : Reads depth m.2 (renderAt l level m.2).toList) :
    Stands (MemberAt depth) m (memberText l level m) := by
  obtain ⟨blank, hcolon, hblank⟩ := toList_colon l
  have htext : ∀ rest, memberText l level m ++ rest = '"' :: (m.1.toList.flatMap escapeChar ++
      '"' :: (':' :: (blank ++ ((renderAt l level m.2).toList ++ rest)))) := by
    intro rest
    simp [memberText, toList_quote, hcolon]
  refine ⟨⟨'"', _, by simpa using htext [], by decide⟩, ?_⟩
  intro fuel sp rest hsp hf hr
  obtain ⟨n, rfl⟩ : ∃ n, fuel = n + 1 := ⟨fuel - 1, by omega⟩
  have hlen : (renderAt l level m.2).toList.length ≤ n := by
    simp only [memberText, String.toList_append, List.length_append] at hf
    omega
  refine ⟨_, blank ++ ((renderAt l level m.2).toList ++ rest), ?_, skipSpace_cons rfl, ?_⟩
  · rw [skipSpace_append hsp, htext]
    exact skipSpace_cons rfl
  · rw [skipSpace_append hblank, hb.skipSpace_append]
    exact h n rest hlen hr

end Containers

/-- The text of an integer is the text of no other value. -/
theorem value_toString (n : Int) (rest : List Char) :
    value (fuel + 1) depth ((toString n).toList ++ rest) = number ((toString n).toList ++ rest) := by
  obtain ⟨c, cs, hs, hc⟩ := head_toString n
  rw [hs, List.cons_append, value]
  all_goals
    intro r he
    exact absurd (List.cons.inj he).1 (ne_of_numeral hc (by decide))

/-- Every value is read from its text, in every layout. -/
theorem reads_render (h : Readable depth j) (l : Layout) (level : Nat) :
    Reads depth j (renderAt l level j).toList := by
  induction h generalizing level with
  | null =>
    intro fuel rest _ _
    simp [renderAt, value]
  | bool b =>
    intro fuel rest _ _
    cases b <;> simp [renderAt, value]
  | int n short =>
    intro fuel rest _ hr
    exact (value_toString n rest).trans (number_toString short hr)
  | str s =>
    intro fuel rest _ _
    rw [renderAt, toList_quote]
    simp only [List.cons_append, List.append_assoc, List.nil_append, value, stringBody_quoted,
      Option.map_some, String.ofList_toList]
  | @arr depth items inside ih =>
    cases items with
    | nil =>
      intro fuel rest _ _
      simp [renderAt, renderItems, Layout.block, value, skipSpace, isSpace]
    | cons j js =>
      have hstands : ∀ i ∈ j :: js, Stands (ItemAt depth) i (renderAt l (level + 1) i).toList :=
        fun i hi => item_stands (begins_render (inside i hi) l _) (ih i hi _)
      have hreads := (arrays depth).reads _ (List.cons_ne_nil j js) hstands
        (spaces_lineBreak l (level + 1)) (spaces_lineBreak l level)
      rw [renderAt, toList_block l level "[" "]" (by simp [renderItems]), map_renderItems]
      exact hreads
  | @obj depth members inside ih =>
    cases members with
    | nil =>
      intro fuel rest _ _
      simp [renderAt, renderMembers, Layout.block, value, skipSpace, isSpace]
    | cons m ms =>
      have hstands : ∀ i ∈ m :: ms, Stands (MemberAt depth) i (memberText l (level + 1) i) :=
        fun i hi => member_stands (begins_render (inside i hi) l _) (ih i hi _)
      have hreads := (objects depth).reads _ (List.cons_ne_nil m ms) hstands
        (spaces_lineBreak l (level + 1)) (spaces_lineBreak l level)
      rw [renderAt, toList_block l level "\x7b" "\x7d" (by simp [renderMembers]), map_renderMembers]
      exact hreads

/-- A value that is written in any layout is read back. -/
theorem parse?_render (h : Readable maxDepth j) (l : Layout) : parse? (j.render l) = some j := by
  have hb : Begins (j.render l).toList := begins_render h l 0
  have hspace : skipSpace (j.render l).toList = (j.render l).toList := by
    have h : skipSpace ((j.render l).toList ++ []) = (j.render l).toList ++ [] := hb.skipSpace_append
    rwa [List.append_nil] at h
  have hread : value (2 * (j.render l).toList.length + 1) maxDepth ((j.render l).toList ++ []) =
      some (j, []) :=
    reads_render h l 0 _ [] (Nat.le_mul_of_pos_left _ (by decide)) (by simp [Delimited])
  rw [List.append_nil] at hread
  simp only [parse?, hspace, hread, Option.bind_eq_bind, Option.bind_some]
  rfl

end TapeMachine.Json
