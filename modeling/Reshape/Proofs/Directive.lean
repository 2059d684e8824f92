import Mathlib.Data.List.TakeWhile
import Reshape.Directive

/-! Directives taken apart. A name without a colon that fits in the window, a colon and any text are
split into the name and the text. -/

namespace Reshape.Directive

theorem cut_append {name rest : List Char} (hc : ':' ∉ name) (hl : name.length < window) :
    cut (name ++ ':' :: rest) = some (name, rest) := by
  obtain ⟨k, hk⟩ : ∃ k, window - name.length = k + 1 := ⟨window - name.length - 1, by omega⟩
  have htake : (name ++ ':' :: rest).take window = name ++ ':' :: rest.take k := by
    rw [List.take_append, List.take_of_length_le (by omega), hk, List.take_succ_cons]
  have hhead : (name ++ ':' :: rest.take k).takeWhile (· != ':') = name := by
    rw [List.takeWhile_append_of_pos]
    · simp
    · intro c hm
      have : c ≠ ':' := fun h => hc (h ▸ hm)
      simpa using this
  have hdrop : (name ++ ':' :: rest).drop (name.length + 1) = rest := by simp
  rw [cut, htake, hhead, hdrop]
  simp

/-- A text is cut at its first colon, if that is in the window. -/
theorem cut_eq_some_iff {cs head rest : List Char} :
    cut cs = some (head, rest) ↔ cs = head ++ ':' :: rest ∧ ':' ∉ head ∧ head.length < window := by
  constructor
  · intro h
    dsimp only [cut] at h
    split_ifs at h with hl
    obtain ⟨rfl, rfl⟩ := Prod.mk.inj (Option.some.inj h)
    generalize hfront : cs.take window = front at hl ⊢
    have hwhole : front.takeWhile (· != ':') ++ front.dropWhile (· != ':') = front :=
      List.takeWhile_append_dropWhile
    obtain ⟨c, tail, hd⟩ : ∃ c tail, front.dropWhile (· != ':') = c :: tail := by
      refine List.exists_cons_of_ne_nil fun hnil => ?_
      rw [hnil, List.append_nil] at hwhole
      exact Nat.lt_irrefl _ (hwhole ▸ hl)
    obtain rfl : c = ':' := by simpa [hd] using List.head?_dropWhile_not (· != ':') front
    have hcs : cs = front.takeWhile (· != ':') ++ ':' :: (tail ++ cs.drop window) := by
      calc cs = front ++ cs.drop window := by rw [← hfront, List.take_append_drop]
        _ = front.takeWhile (· != ':') ++ ':' :: tail ++ cs.drop window := by rw [← hd, hwhole]
        _ = _ := by simp
    have hrest : cs.drop ((front.takeWhile (· != ':')).length + 1) = tail ++ cs.drop window := by
      simpa using congrArg (List.drop ((front.takeWhile (· != ':')).length + 1)) hcs
    refine ⟨by rw [hrest]; exact hcs, fun hm => by simpa using List.mem_takeWhile_imp hm, ?_⟩
    exact Nat.lt_of_lt_of_le hl (hfront ▸ List.length_take_le _ _)
  · rintro ⟨rfl, hc, hl⟩
    exact cut_append hc hl

/-- What follows a registered name and a colon is the expression, whatever it holds. -/
theorem split_append {registered : String → Bool} {default name : String} (e : String)
    (hr : registered name = true) (hn : name ≠ "") (hc : ':' ∉ name.toList)
    (hl : name.toList.length < window) :
    split (name ++ ":" ++ e) registered default = ⟨name, e⟩ := by
  have hs : (name ++ ":" ++ e).toList = name.toList ++ ':' :: e.toList := by simp
  rw [split, hs, cut_append hc hl]
  simp [hr, hn]

end Reshape.Directive
