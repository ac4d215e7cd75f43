/-!
Line ends. A text file may end its lines with a line feed, a carriage return, or both; reading it
turns each of them into one line feed.
-/
namespace TapeMachine

/-- Turns every line end into a line feed. -/
def unifyNewlines : List Char → List Char
  | [] => []
  | '\r' :: '\n' :: rest => '\n' :: unifyNewlines rest
  | '\r' :: rest => '\n' :: unifyNewlines rest
  | c :: rest => c :: unifyNewlines rest

/-- A carriage return is a line end of its own unless a line feed follows. -/
theorem unifyNewlines_return {cs : List Char} (h : cs.head? ≠ some '\n') :
    unifyNewlines ('\r' :: cs) = '\n' :: unifyNewlines cs := by
  rw [unifyNewlines]
  rintro rest rfl
  exact h rfl

/-- Texts may be joined anywhere but between a carriage return and a line feed. -/
theorem unifyNewlines_append {cs ds : List Char} (h : cs.getLast? = some '\r' → ds.head? ≠ some '\n') :
    unifyNewlines (cs ++ ds) = unifyNewlines cs ++ unifyNewlines ds := by
  fun_induction unifyNewlines cs with
  | case1 => rfl
  | case2 rest ih =>
    have hrest := ih fun hlast => h (by simp [List.getLast?_cons, hlast])
    rw [List.cons_append, List.cons_append, unifyNewlines, hrest, List.cons_append]
  | case3 rest hfeed ih =>
    have hrest := ih fun hlast => h (by simp [List.getLast?_cons, hlast])
    have hhead : (rest ++ ds).head? ≠ some '\n' := by
      cases rest with
      | nil => exact h rfl
      | cons c rest =>
        rintro ⟨⟩
        exact hfeed rest rfl
    rw [List.cons_append, unifyNewlines_return hhead, hrest, List.cons_append]
  | case4 c rest hfeed hreturn ih =>
    have hrest := ih fun hlast => h (by simp [List.getLast?_cons, hlast])
    rw [List.cons_append, unifyNewlines, hrest, List.cons_append]
    · exact fun _ hc _ => hreturn hc
    · exact hreturn

end TapeMachine
