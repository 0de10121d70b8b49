import TaxStamp.Lib.Table

/-!
# Writes that are accepted

A table refuses a write that would break its constraints. These are the conditions under
which it accepts one: an appended row fits, passes its CHECK and clashes with nothing that
is there; a rewritten row is judged by the constraints as it was before.
-/

namespace TaxStamp.Lib

variable {α : Type} {S : Schema α}

/-- A row that the table can take. -/
structure Table.Accepts (t : Table S) (row : α) : Prop where
  fits : S.fits row = true
  check : S.check row = true
  distinct : ∀ r ∈ t.rows, S.clash r row = false

/-- A row is appended exactly when the table can take it. -/
theorem Table.exists_append_iff {t : Table S} {row : α} :
    (∃ u : Table S, u.rows = t.rows ++ [row]) ↔ t.Accepts row := by
  constructor
  · rintro ⟨u, hu⟩
    have hrow : row ∈ u.rows := by
      rw [hu]
      exact List.mem_append_right _ (List.mem_singleton.mpr rfl)
    exact ⟨u.valid.fits row hrow, u.valid.check row hrow, Table.not_clash_of_append t u hu⟩
  · intro h
    refine ⟨⟨t.rows ++ [row], ?_, ?_, ?_⟩, rfl⟩
    · intro r hr
      rcases List.mem_append.mp hr with hold | hnew
      · exact t.valid.fits r hold
      · rw [List.mem_singleton.mp hnew]
        exact h.fits
    · intro r hr
      rcases List.mem_append.mp hr with hold | hnew
      · exact t.valid.check r hold
      · rw [List.mem_singleton.mp hnew]
        exact h.check
    · rw [List.pairwise_append]
      refine ⟨t.valid.distinct, List.pairwise_singleton _ _, ?_⟩
      intro r hr r' hr'
      rw [List.mem_singleton.mp hr']
      exact h.distinct r hr

/-- A row outside its column types is rejected before any constraint is looked at. -/
theorem Table.insert_of_not_fits {t : Table S} {row : α} (h : S.fits row = false) : t.insert row = .error .data := by
  have hrow : row ∈ t.rows ++ [row] := List.mem_append_right _ (List.mem_singleton.mpr rfl)
  unfold insert ofRows
  rw [dif_neg, if_neg]
  · intro hall
    rw [hall row hrow] at h
    cases h
  · intro hvalid
    rw [hvalid.fits row hrow] at h
    cases h

/-- A row that fits violates a constraint when it clashes with another row. -/
theorem Table.insert_of_clash {t : Table S} {r row : α} (hfits : S.fits row = true) (hr : r ∈ t.rows)
    (hclash : S.clash r row = true) : t.insert row = .error .integrity := by
  unfold insert ofRows
  rw [dif_neg, if_pos]
  · intro r' hr'
    rcases List.mem_append.mp hr' with hold | hnew
    · exact t.valid.fits r' hold
    · rw [List.mem_singleton.mp hnew]
      exact hfits
  · intro hvalid
    have hdistinct := (List.pairwise_append.mp hvalid.distinct).2.2 r hr row (List.mem_singleton.mpr rfl)
    rw [hclash] at hdistinct
    cases hdistinct

/-- Rows are appended to a table without unique keys when each of them fits and passes its CHECK. -/
theorem Table.exists_append_all {t : Table S} {new : List α} (hfits : ∀ r ∈ new, S.fits r = true)
    (hcheck : ∀ r ∈ new, S.check r = true) (hclash : ∀ a b, S.clash a b = false) :
    ∃ u : Table S, u.rows = t.rows ++ new := by
  induction new generalizing t with
  | nil => exact ⟨t, (List.append_nil _).symm⟩
  | cons row rest ih =>
    have haccepts : t.Accepts row :=
      ⟨hfits row (List.mem_cons_self ..), hcheck row (List.mem_cons_self ..), fun r _ => hclash r row⟩
    obtain ⟨u, hu⟩ := exists_append_iff.mpr haccepts
    obtain ⟨v, hv⟩ := ih (t := u) (fun r hr => hfits r (List.mem_cons_of_mem _ hr))
      fun r hr => hcheck r (List.mem_cons_of_mem _ hr)
    exact ⟨v, by rw [hv, hu, List.append_assoc, List.singleton_append]⟩

/-- Rows are rewritten when the constraints do not see the difference. -/
theorem Table.exists_map {t : Table S} (f : α → α) (hfits : ∀ r ∈ t.rows, S.fits (f r) = S.fits r)
    (hcheck : ∀ r ∈ t.rows, S.check (f r) = S.check r) (hclash : ∀ a b, S.clash (f a) (f b) = S.clash a b) :
    ∃ u : Table S, u.rows = t.rows.map f := by
  refine ⟨⟨t.rows.map f, ?_, ?_, ?_⟩, rfl⟩
  · intro r hr
    obtain ⟨old, hold, rfl⟩ := List.mem_map.mp hr
    rw [hfits old hold]
    exact t.valid.fits old hold
  · intro r hr
    obtain ⟨old, hold, rfl⟩ := List.mem_map.mp hr
    rw [hcheck old hold]
    exact t.valid.check old hold
  · rw [List.pairwise_map]
    refine t.valid.distinct.imp fun {a b} hab => ?_
    rw [hclash]
    exact hab

end TaxStamp.Lib
