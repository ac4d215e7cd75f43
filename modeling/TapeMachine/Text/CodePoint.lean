/-!
Code points and texts. A text is a sequence of code points rather than of characters, because the
input of a run, a command-line argument and a settings value may hold a surrogate on its own.
-/
namespace TapeMachine

/-- A Unicode code point, surrogates included. -/
structure CodePoint where
  val : Nat
  isLt : val < 0x110000
  deriving DecidableEq

/-- A sequence of code points. -/
abbrev Text := List CodePoint

namespace CodePoint

theorem ext_val {a b : CodePoint} (h : a.val = b.val) : a = b := by
  cases a; cases b; simp_all

def isSurrogate (c : CodePoint) : Bool := 0xD800 ≤ c.val && c.val < 0xE000

theorem toNat_lt (c : Char) : c.toNat < 0x110000 := by
  have h := c.valid
  simp only [UInt32.isValidChar, Nat.isValidChar] at h
  simp only [Char.toNat]
  omega

theorem toNat_ofNat {n : Nat} (h : n.isValidChar) : (Char.ofNat n).toNat = n := by
  have hc : Char.ofNat n = Char.ofNatAux n h := dif_pos h
  rw [hc]
  rfl

def ofChar (c : Char) : CodePoint := ⟨c.toNat, toNat_lt c⟩

instance : Coe Char CodePoint := ⟨ofChar⟩

/-- The code point with this number, if there is one. -/
def ofNat? (n : Nat) : Option CodePoint :=
  if h : n < 0x110000 then some ⟨n, h⟩ else none

/-- The character with this code point; a surrogate has none. -/
def toChar? (c : CodePoint) : Option Char :=
  if c.isSurrogate then none else some (Char.ofNat c.val)

/-- A character is no surrogate. -/
theorem isSurrogate_ofChar (c : Char) : (ofChar c).isSurrogate = false := by
  have h := c.valid
  have hv : (ofChar c).val = c.val.toNat := rfl
  simp only [UInt32.isValidChar, Nat.isValidChar] at h
  rw [Bool.eq_false_iff]
  simp only [isSurrogate, ne_eq, Bool.and_eq_true, decide_eq_true_eq, not_and]
  omega

@[simp] theorem toChar?_ofChar (c : Char) : (ofChar c).toChar? = some c := by
  rw [toChar?, isSurrogate_ofChar]
  exact congrArg some (Char.ofNat_toNat c)

theorem exists_ofChar {c : CodePoint} (h : c.isSurrogate = false) : ∃ d, c = ofChar d := by
  have hlt := c.isLt
  rw [Bool.eq_false_iff] at h
  simp only [isSurrogate, ne_eq, Bool.and_eq_true, decide_eq_true_eq, not_and] at h
  refine ⟨Char.ofNat c.val, ext_val ?_⟩
  exact (toNat_ofNat (by unfold Nat.isValidChar; omega)).symm

def is (p : CodePoint) (c : Char) : Bool := p.val == c.toNat

end CodePoint

/-- The number written with lower-case hexadecimal digits, at least `width` of them. -/
def hexText (width n : Nat) : String :=
  let digits := Nat.toDigits 16 n
  String.ofList (List.replicate (width - digits.length) '0' ++ digits)

namespace Text

def ofString (s : String) : Text := s.toList.map CodePoint.ofChar

instance : Coe String Text := ⟨ofString⟩

/-- The characters of a text that holds no surrogate. -/
def toString? (t : Text) : Option String := (t.mapM CodePoint.toChar?).map String.ofList

/-- The text as a string, with `\udXXX` in place of a surrogate. -/
def display (t : Text) : String :=
  t.foldl (fun out c =>
    match c.toChar? with
    | some ch => out.push ch
    | none => out ++ "\\u" ++ hexText 4 c.val) ""

@[simp] theorem toString?_ofString (s : String) : (ofString s).toString? = some s := by
  have h : ∀ cs : List Char, (cs.map CodePoint.ofChar).mapM CodePoint.toChar? = some cs := by
    intro cs
    induction cs with
    | nil => rfl
    | cons c cs ih => simp [ih]
  rw [toString?, ofString, h, Option.map_some, String.ofList_toList]

theorem isSurrogate_of_mem_ofString {s : String} {c : CodePoint} (h : c ∈ ofString s) :
    c.isSurrogate = false := by
  obtain ⟨d, -, rfl⟩ := List.mem_map.1 h
  exact CodePoint.isSurrogate_ofChar d

theorem ofString_injective {s t : String} (h : ofString s = ofString t) : s = t := by
  have h' := congrArg toString? h
  rw [toString?_ofString, toString?_ofString] at h'
  exact Option.some.inj h'

/-- A text without surrogates is shown as it is. -/
theorem ofString_display {t : Text} (h : ∀ c ∈ t, c.isSurrogate = false) :
    ofString t.display = t := by
  obtain ⟨cs, rfl⟩ : ∃ cs : List Char, t = cs.map CodePoint.ofChar := by
    induction t with
    | nil => exact ⟨[], rfl⟩
    | cons c t ih =>
      obtain ⟨d, rfl⟩ := CodePoint.exists_ofChar (h c (by simp))
      obtain ⟨cs, rfl⟩ := ih fun e he => h e (by simp [he])
      exact ⟨d :: cs, rfl⟩
  have hfold : ∀ out : String, (cs.map CodePoint.ofChar).foldl (fun out c =>
      match c.toChar? with
      | some ch => out.push ch
      | none => out ++ "\\u" ++ hexText 4 c.val) out = out ++ String.ofList cs := by
    induction cs with
    | nil => simp
    | cons c cs ih =>
      intro out
      rw [List.map_cons, List.foldl_cons, CodePoint.toChar?_ofChar, ih fun e he => h e (by simp [he])]
      simp [← String.toList_inj]
  rw [display, hfold, ofString]
  simp

def join (sep : Text) : List Text → Text
  | [] => []
  | [t] => t
  | t :: u :: rest => t ++ sep ++ join sep (u :: rest)

/-- The part before the first code point that satisfies `p`, that one, and what follows. -/
def splitAt? (p : CodePoint → Bool) : Text → Option (Text × CodePoint × Text)
  | [] => none
  | c :: rest =>
    if p c then some ([], c, rest)
    else (splitAt? p rest).map fun (before, mid, after) => (c :: before, mid, after)

/-- Drops the code points of class `p` from both ends. -/
def trim (p : CodePoint → Bool) (t : Text) : Text :=
  ((t.dropWhile p).reverse.dropWhile p).reverse

end Text

end TapeMachine
