import LogRelay.Path

/-!
# The names on a path

A path is followed name by name: the segments that count for nothing are passed over. This file computes
the names on the path of a directory above and on the paths of rotated files, which all lie in the
directory of the path they are made from and differ in their last name only.
-/

namespace LogRelay.Path

/-- The segments of a path that count, in order. -/
def names (path : List Char) : List Segment := (split path).filter fun segment => !isIdle segment

/-- A path that stays below where it starts and ends in a name. -/
structure EndsIn (path : List Char) (folder : List Segment) (name : Segment) : Prop where
  /-- The segments before the last one, and the last one. -/
  split_eq : split path = folder ++ [name]
  /-- The last segment can be the name of a file. -/
  isName : isName name = true
  /-- No segment leads to a directory above. -/
  descends : above ∉ split path

/-! ## Segments -/

theorem split_ne_nil (path : List Char) : split path ≠ [] := by
  cases path with
  | nil => simp [split]
  | cons char rest =>
      simp only [split]
      split
      · simp
      · split <;> simp

theorem slash_notMem_of_mem_split {path : List Char} {segment : Segment}
    (hmem : segment ∈ split path) : '/' ∉ segment := by
  induction path generalizing segment with
  | nil =>
      rw [List.mem_singleton.1 hmem]
      exact List.not_mem_nil
  | cons char rest induction =>
      simp only [split] at hmem
      split at hmem
      · rcases List.mem_cons.1 hmem with rfl | hrest
        · exact List.not_mem_nil
        · exact induction hrest
      · next hchar =>
        cases hsplit : split rest with
        | nil => exact absurd hsplit (split_ne_nil rest)
        | cons first others =>
            rw [hsplit] at hmem induction
            rcases List.mem_cons.1 hmem with rfl | hothers
            · intro hslash
              rcases List.mem_cons.1 hslash with hhead | htail
              · exact hchar hhead.symm
              · exact induction List.mem_cons_self htail
            · exact induction (List.mem_cons_of_mem first hothers)

theorem split_of_notMem {segment : Segment} (hslash : '/' ∉ segment) : split segment = [segment] := by
  induction segment with
  | nil => rfl
  | cons char rest induction =>
      simp only [List.mem_cons, not_or] at hslash
      simp only [split, if_neg (Ne.symm hslash.1), induction hslash.2]

theorem split_append_slash {segment : Segment} (hslash : '/' ∉ segment) (rest : List Char) :
    split (segment ++ '/' :: rest) = segment :: split rest := by
  induction segment with
  | nil => simp [split]
  | cons char others induction =>
      simp only [List.mem_cons, not_or] at hslash
      simp only [List.cons_append, split, if_neg (Ne.symm hslash.1), induction hslash.2]

theorem split_join_append {segments : List Segment} (hne : segments ≠ [])
    (hslash : ∀ segment ∈ segments, '/' ∉ segment) (rest : List Char) :
    split (join segments ++ '/' :: rest) = segments ++ split rest := by
  induction segments with
  | nil => exact absurd rfl hne
  | cons segment others induction =>
      have hfirst : '/' ∉ segment := hslash segment List.mem_cons_self
      cases others with
      | nil => exact split_append_slash hfirst rest
      | cons next others =>
          have hothers : ∀ other ∈ next :: others, '/' ∉ other := fun other hother =>
            hslash other (List.mem_cons_of_mem segment hother)
          simp only [join, List.append_assoc, List.cons_append]
          rw [split_append_slash hfirst, induction (by simp) hothers]
          rfl

theorem split_join {segments : List Segment} (hne : segments ≠ [])
    (hslash : ∀ segment ∈ segments, '/' ∉ segment) : split (join segments) = segments := by
  induction segments with
  | nil => exact absurd rfl hne
  | cons segment others induction =>
      have hfirst : '/' ∉ segment := hslash segment List.mem_cons_self
      cases others with
      | nil => exact split_of_notMem hfirst
      | cons next others =>
          have hothers : ∀ other ∈ next :: others, '/' ∉ other := fun other hother =>
            hslash other (List.mem_cons_of_mem segment hother)
          have hrest : split (join (next :: others)) = next :: others :=
            induction (by simp) hothers
          have hjoin : join (segment :: next :: others) =
              segment ++ '/' :: join (next :: others) := rfl
          rw [hjoin, split_append_slash hfirst, hrest]

theorem join_cons {rest : List Segment} (hne : rest ≠ []) (segment : Segment) :
    join (segment :: rest) = segment ++ '/' :: join rest := by
  cases rest with
  | nil => exact absurd rfl hne
  | cons next others => rfl

theorem join_split (path : List Char) : join (split path) = path := by
  induction path with
  | nil => rfl
  | cons char rest induction =>
      rw [split]
      split
      · next hchar => rw [join_cons (split_ne_nil rest), induction, hchar, List.nil_append]
      · cases hsplit : split rest with
        | nil => exact absurd hsplit (split_ne_nil rest)
        | cons first others =>
            rw [hsplit] at induction
            rw [← induction]
            cases others <;> rfl

/-- Fewer segments at the end make a shorter path. -/
theorem join_isPrefix {front segments : List Segment} (hfront : front <+: segments) :
    join front <+: join segments := by
  obtain ⟨back, rfl⟩ := hfront
  induction front with
  | nil => exact List.nil_prefix
  | cons segment rest induction =>
      by_cases hrest : rest = []
      · subst hrest
        by_cases hback : back = []
        · subst hback
          exact List.prefix_refl _
        · rw [List.cons_append, List.nil_append, join_cons hback]
          exact List.prefix_append _ _
      · rw [List.cons_append, join_cons hrest, join_cons (List.append_ne_nil_of_left_ne_nil hrest back)]
        exact (List.prefix_append_right_inj _).2 ((List.prefix_cons_inj _).2 induction)

theorem head?_eq_slash_iff {path : List Char} (hne : path ≠ []) :
    path.head? = some '/' ↔ (split path).head? = some [] := by
  cases path with
  | nil => exact absurd rfl hne
  | cons char rest =>
      simp only [split, List.head?_cons, Option.some.injEq]
      by_cases hchar : char = '/'
      · simp [hchar]
      · cases hsplit : split rest with
        | nil => exact absurd hsplit (split_ne_nil rest)
        | cons first others => simp [hchar]

/-! ## Idle segments -/

theorem isIdle_eq_false_of_isName {name : Segment} (hname : isName name = true) :
    isIdle name = false := by
  simp only [isName, Bool.and_eq_true, Bool.not_eq_true'] at hname
  exact hname.1

theorem trimEnd_append_name {segment : Segment} (hsegment : isIdle segment = false)
    (front : List Segment) : trimEnd (front ++ [segment]) = front ++ [segment] := by
  induction front with
  | nil => simp [trimEnd, hsegment]
  | cons first front induction =>
      simp only [List.cons_append, trimEnd, induction]
      cases front <;> rfl

theorem trim_append_name {segment : Segment} (hsegment : isIdle segment = false)
    (front : List Segment) : trim (front ++ [segment]) = front ++ [segment] := by
  cases front with
  | nil => rfl
  | cons first front =>
      simp only [List.cons_append, trim, trimEnd_append_name hsegment]

theorem trimEnd_cases (segments : List Segment) :
    trimEnd segments = [] ∨
      ∃ front segment, trimEnd segments = front ++ [segment] ∧ isIdle segment = false := by
  induction segments with
  | nil => exact .inl rfl
  | cons first rest induction =>
      rcases induction with hnone | ⟨front, segment, hsome, hsegment⟩
      · cases hfirst : isIdle first with
        | true => exact .inl (by simp [trimEnd, hnone, hfirst])
        | false => exact .inr ⟨[], first, by simp [trimEnd, hnone, hfirst], hfirst⟩
      · refine .inr ⟨first :: front, segment, ?_, hsegment⟩
        cases front <;> simp [trimEnd, hsome]

theorem trim_cases (segments : List Segment) :
    trim segments = segments.take 1 ∨
      ∃ front segment, trim segments = front ++ [segment] ∧ isIdle segment = false := by
  cases segments with
  | nil => exact .inl rfl
  | cons first rest =>
      rcases trimEnd_cases rest with hnone | ⟨front, segment, hsome, hsegment⟩
      · exact .inl (by simp [trim, hnone])
      · exact .inr ⟨first :: front, segment, by simp [trim, hsome], hsegment⟩

theorem trim_trim (segments : List Segment) : trim (trim segments) = trim segments := by
  rcases trim_cases segments with hfront | ⟨front, segment, hlast, hsegment⟩
  · rw [hfront]
    cases segments <;> rfl
  · rw [hlast, trim_append_name hsegment]

theorem filter_trimEnd (segments : List Segment) :
    (trimEnd segments).filter (fun segment => !isIdle segment) =
      segments.filter fun segment => !isIdle segment := by
  induction segments with
  | nil => rfl
  | cons first rest induction =>
      rw [List.filter_cons, ← induction, trimEnd]
      cases trimEnd rest with
      | nil => cases hfirst : isIdle first <;> simp [hfirst]
      | cons next others => simp [List.filter_cons]

@[simp]
theorem filter_trim (segments : List Segment) :
    (trim segments).filter (fun segment => !isIdle segment) =
      segments.filter fun segment => !isIdle segment := by
  cases segments with
  | nil => rfl
  | cons first rest => simp only [trim, List.filter_cons, filter_trimEnd]

theorem trimEnd_isPrefix (segments : List Segment) : trimEnd segments <+: segments := by
  induction segments with
  | nil => exact List.prefix_refl []
  | cons first rest induction =>
      rw [trimEnd]
      cases htrim : trimEnd rest with
      | nil => cases isIdle first <;> simp
      | cons next others => exact (List.prefix_cons_inj first).2 (htrim ▸ induction)

theorem trim_isPrefix (segments : List Segment) : trim segments <+: segments := by
  cases segments with
  | nil => exact List.prefix_refl []
  | cons first rest => exact (List.prefix_cons_inj first).2 (trimEnd_isPrefix rest)

theorem trim_subset (segments : List Segment) : trim segments ⊆ segments :=
  (trim_isPrefix segments).subset

theorem head?_trim (segments : List Segment) : (trim segments).head? = segments.head? := by
  cases segments <;> rfl

end LogRelay.Path
