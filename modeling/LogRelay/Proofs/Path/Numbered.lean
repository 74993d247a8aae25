import LogRelay.Proofs.Path.Names

/-!
# Paths above and beside a path

The directory above a path has the same names but the last. The rotated paths of a file end in numbered
names, which differ from the name of the file and from each other.
-/

namespace LogRelay.Path

/-! ## The directory above -/

theorem parent_eq_join {path : List Char} (hroot : trim (trim (split path)).dropLast ≠ [[]]) :
    parent path = join (trim (trim (split path)).dropLast) := by
  unfold parent
  split
  · next hsegments => exact absurd hsegments hroot
  · rfl

theorem parent_cases (path : List Char) :
    (trim (trim (split path)).dropLast = [] ∧ parent path = []) ∨
      (trim (trim (split path)).dropLast = [[]] ∧ parent path = ['/']) ∨
      (trim (trim (split path)).dropLast ≠ [] ∧
        split (parent path) = trim (trim (split path)).dropLast) := by
  have hslash : ∀ segment ∈ trim (trim (split path)).dropLast, '/' ∉ segment := by
    intro segment hsegment
    exact slash_notMem_of_mem_split <| trim_subset _ <| List.dropLast_subset _ <|
      trim_subset _ hsegment
  by_cases hnone : trim (trim (split path)).dropLast = []
  · exact .inl ⟨hnone, by simp [parent, hnone, join]⟩
  by_cases hroot : trim (trim (split path)).dropLast = [[]]
  · exact .inr <| .inl ⟨hroot, by simp [parent, hroot]⟩
  exact .inr <| .inr ⟨hnone, by rw [parent_eq_join hroot, split_join hnone hslash]⟩

theorem filter_dropLast_trim (segments : List Segment) :
    (trim segments).dropLast.filter (fun segment => !isIdle segment) =
      (segments.filter fun segment => !isIdle segment).dropLast := by
  rw [← filter_trim segments]
  rcases trim_cases segments with hfront | ⟨front, segment, hlast, hsegment⟩
  · rw [hfront]
    cases segments with
    | nil => rfl
    | cons first rest => cases hfirst : isIdle first <;> simp [hfirst]
  · rw [hlast]
    simp [List.filter_append, hsegment]

theorem names_parent (path : List Char) : names (parent path) = (names path).dropLast := by
  have hfilter : (trim (trim (split path)).dropLast).filter (fun segment => !isIdle segment) =
      (names path).dropLast := by
    rw [filter_trim, filter_dropLast_trim, names]
  rw [← hfilter]
  rcases parent_cases path with ⟨hsegments, hparent⟩ | ⟨hsegments, hparent⟩ | ⟨-, hsplit⟩
  · rw [hsegments, hparent]
    rfl
  · rw [hsegments, hparent]
    rfl
  · rw [names, hsplit]

theorem head?_trim_dropLast_trim {path : List Char}
    (hne : trim (trim (split path)).dropLast ≠ []) :
    (trim (trim (split path)).dropLast).head? = (split path).head? := by
  rw [head?_trim, ← head?_trim (split path)]
  cases hsegments : trim (split path) with
  | nil =>
      rw [hsegments] at hne
      exact absurd rfl hne
  | cons first rest =>
      cases rest with
      | nil =>
          rw [hsegments] at hne
          exact absurd rfl hne
      | cons second rest => rfl

theorem head?_parent {path : List Char} (hne : parent path ≠ []) :
    (parent path).head? = some '/' ↔ path.head? = some '/' := by
  have hpath : path ≠ [] := by
    rintro rfl
    exact hne rfl
  rw [head?_eq_slash_iff hne, head?_eq_slash_iff hpath]
  rcases parent_cases path with ⟨-, hparent⟩ | ⟨hsegments, hparent⟩ | ⟨hsome, hsplit⟩
  · exact absurd hparent hne
  · have hne' : trim (trim (split path)).dropLast ≠ [] := by simp [hsegments]
    rw [hparent, ← head?_trim_dropLast_trim hne', hsegments]
    simp [split]
  · rw [hsplit, head?_trim_dropLast_trim hsome]

theorem parent_isPrefix (path : List Char) : parent path <+: path := by
  by_cases hroot : trim (trim (split path)).dropLast = [[]]
  · have hparent : parent path = ['/'] := by simp [parent, hroot]
    have hhead : path.head? = some '/' := (head?_parent (by simp [hparent])).1 (by simp [hparent])
    obtain ⟨rest, rfl⟩ := List.head?_eq_some_iff.1 hhead
    rw [hparent]
    exact List.prefix_append ['/'] rest
  · have hfront : trim (trim (split path)).dropLast <+: split path :=
      (trim_isPrefix _).trans ((List.dropLast_prefix _).trans (trim_isPrefix _))
    have hjoin := join_isPrefix hfront
    rwa [join_split, ← parent_eq_join hroot] at hjoin

theorem above_notMem_split_parent {path : List Char} (hpath : above ∉ split path) :
    above ∉ split (parent path) := by
  intro habove
  rcases parent_cases path with ⟨-, hparent⟩ | ⟨-, hparent⟩ | ⟨-, hsplit⟩
  · simp [hparent, split, above] at habove
  · simp [hparent, split, above] at habove
  · rw [hsplit] at habove
    exact hpath <| trim_subset _ <| List.dropLast_subset _ <| trim_subset _ habove

/-! ## Numbered names -/

/-- The part of a file name behind the stem. -/
def extensionPart : Option Segment → Segment
  | some extension => '.' :: extension
  | none => []

theorem eq_of_cutLastDot? {name : Segment} {parts : Segment × Segment}
    (hparts : cutLastDot? name = some parts) : name = parts.1 ++ '.' :: parts.2 := by
  induction name generalizing parts with
  | nil => simp [cutLastDot?] at hparts
  | cons char rest induction =>
      simp only [cutLastDot?] at hparts
      split at hparts
      · next found hrest =>
        obtain rfl := Option.some.inj hparts
        rw [induction hrest]
        rfl
      · split at hparts
        · next hdot =>
          obtain rfl := Option.some.inj hparts
          simp [hdot]
        · simp at hparts

theorem eq_stem_append (name : Segment) :
    name = (stemAndExtension name).1 ++ extensionPart (stemAndExtension name).2 := by
  unfold stemAndExtension
  split
  · next stem extension hcut =>
    split
    · simp [extensionPart]
    · exact eq_of_cutLastDot? hcut
  · simp [extensionPart]

theorem numberedName_eq (name : Segment) (number : Nat) :
    numberedName name number =
      (stemAndExtension name).1 ++ '.' :: Digits.decimal number ++
        extensionPart (stemAndExtension name).2 := by
  simp only [numberedName]
  cases (stemAndExtension name).2 <;> rfl

theorem decimal_injective {first second : Nat} (hsame : Digits.decimal first = Digits.decimal second) :
    first = second := by
  have hread := congrArg (fun digits => Nat.ofDigitChars 10 digits 0) hsame
  simpa only [Digits.decimal, Nat.ofDigitChars_ten_toDigits] using hread

theorem numberedName_injective {name : Segment} {first second : Nat}
    (hsame : numberedName name first = numberedName name second) : first = second := by
  rw [numberedName_eq, numberedName_eq] at hsame
  have hdigits := List.append_cancel_left (List.append_cancel_right hsame)
  exact decimal_injective (List.cons.inj hdigits).2

/-- The name of the file with a number, which is the name itself for number zero. -/
def nameAt (name : Segment) (number : Nat) : Segment :=
  if number = 0 then name else numberedName name number

@[simp]
theorem nameAt_zero (name : Segment) : nameAt name 0 = name := rfl

theorem length_lt_length_numberedName (name : Segment) (number : Nat) :
    name.length < (numberedName name number).length := by
  have hname := congrArg List.length (eq_stem_append name)
  rw [numberedName_eq]
  simp only [List.length_append, List.length_cons] at *
  omega

theorem nameAt_injective {name : Segment} {first second : Nat}
    (hsame : nameAt name first = nameAt name second) : first = second := by
  unfold nameAt at hsame
  split at hsame <;> split at hsame
  · next hfirst hsecond => rw [hfirst, hsecond]
  · have hlonger := length_lt_length_numberedName name second
    rw [← hsame] at hlonger
    exact absurd hlonger (Nat.lt_irrefl _)
  · have hlonger := length_lt_length_numberedName name first
    rw [hsame] at hlonger
    exact absurd hlonger (Nat.lt_irrefl _)
  · exact numberedName_injective hsame

theorem length_decimal_le {first second : Nat} (hle : first ≤ second) :
    (Digits.decimal first).length ≤ (Digits.decimal second).length := by
  have hpos : 0 < (Digits.decimal second).length := List.length_pos_iff.2 Nat.toDigits_ne_nil
  have hsecond := (Nat.length_toDigits_le_iff (by decide) hpos).1 (Nat.le_refl _)
  exact (Nat.length_toDigits_le_iff (by decide) hpos).2 (Nat.lt_of_le_of_lt hle hsecond)

theorem slash_notMem_numberedName {name : Segment} (hname : '/' ∉ name) (number : Nat) :
    '/' ∉ numberedName name number := by
  rw [eq_stem_append name] at hname
  rw [numberedName_eq]
  simp only [List.mem_append, List.mem_cons, not_or] at *
  refine ⟨⟨hname.1, by decide, ?_⟩, hname.2⟩
  intro hslash
  exact absurd (Digits.isDigit_of_mem_decimal hslash) (by decide)

theorem isName_numberedName (name : Segment) (number : Nat) :
    isName (numberedName name number) = true := by
  obtain ⟨digit, hdigit⟩ := List.exists_mem_of_ne_nil (Digits.decimal number) Nat.toDigits_ne_nil
  have hmem : digit ∈ numberedName name number := by
    rw [numberedName_eq]
    simp [hdigit]
  have hne : ∀ segment : Segment, (∀ char ∈ segment, char.isDigit = false) →
      numberedName name number ≠ segment := by
    rintro segment hsegment rfl
    simpa [hsegment digit hmem] using Digits.isDigit_of_mem_decimal hdigit
  have hnil := hne [] (by simp)
  have hhere := hne here (by simp [here])
  have habove := hne above (by simp [above])
  simp [isName, isIdle, hnil, hhere, habove]

theorem isName_nameAt {name : Segment} (hname : isName name = true) (number : Nat) :
    isName (nameAt name number) = true := by
  unfold nameAt
  split
  · exact hname
  · exact isName_numberedName name number

/-! ## Another name in the same directory -/

theorem getLast?_join {segments : List Segment} {segment : Segment} (hne : segment ≠ []) :
    (join (segments ++ [segment])).getLast? = segment.getLast? := by
  induction segments with
  | nil => rfl
  | cons first segments induction =>
      have hjoin : join (first :: segments ++ [segment]) =
          first ++ '/' :: join (segments ++ [segment]) := by
        cases segments <;> rfl
      have hlast : (join (segments ++ [segment])).getLast? ≠ none := by
        rw [induction]
        simp [hne]
      obtain ⟨char, hchar⟩ := Option.ne_none_iff_exists'.1 hlast
      rw [hjoin, List.getLast?_append, List.getLast?_cons, ← induction, hchar]
      rfl

theorem getLast?_join_trim_ne_slash (segments : List Segment)
    (hslash : ∀ segment ∈ trim segments, '/' ∉ segment) :
    (join (trim segments)).getLast? ≠ some '/' := by
  rcases trim_cases segments with hfront | ⟨front, segment, hlast, hsegment⟩
  · cases segments with
    | nil => simp [trim, join]
    | cons first rest =>
        have hfirst : trim (first :: rest) = [first] := hfront
        rw [hfirst] at hslash ⊢
        intro hlast
        exact hslash first List.mem_cons_self (List.mem_of_getLast? hlast)
  · rw [hlast] at hslash ⊢
    have hsome : segment ≠ [] := by
      rintro rfl
      simp [isIdle] at hsegment
    rw [getLast?_join hsome]
    intro hend
    exact hslash segment (by simp) (List.mem_of_getLast? hend)

theorem trim_split_of_fileName? {path : List Char} {name : Segment} (hname : fileName? path = some name) :
    trim (split path) = (trim (split path)).dropLast ++ [name] ∧ isName name = true := by
  unfold fileName? at hname
  split at hname
  · next segment hlast =>
    split at hname
    · next hsegment =>
      obtain rfl := Option.some.inj hname
      obtain ⟨folder, hfolder⟩ := List.getLast?_eq_some_iff.1 hlast
      rw [hfolder, List.dropLast_concat]
      exact ⟨rfl, hsegment⟩
    · exact absurd hname (by simp)
  · exact absurd hname (by simp)

/-- A path with another file name has the same segments before it, but for idle ones. -/
theorem split_withFileName {path : List Char} {name other : Segment}
    (hname : fileName? path = some name) (hother : '/' ∉ other) :
    split (withFileName path other) = trim (trim (split path)).dropLast ++ [other] := by
  have hwith : withFileName path other = append (parent path) other := by
    simp [withFileName, hname]
  have hslash : ∀ segment ∈ trim (trim (split path)).dropLast, '/' ∉ segment := fun segment hsegment =>
    slash_notMem_of_mem_split (trim_subset _ (List.dropLast_subset _ (trim_subset _ hsegment)))
  rw [hwith]
  by_cases hnone : trim (trim (split path)).dropLast = []
  · have hparent : parent path = [] := by simp [parent, hnone, join]
    rw [hparent, hnone]
    simpa [append] using split_of_notMem hother
  by_cases hroot : trim (trim (split path)).dropLast = [[]]
  · have hparent : parent path = ['/'] := by simp [parent, hroot]
    have hslashed : split ('/' :: other) = [[], other] := by
      rw [← split_of_notMem hother]
      exact split_append_slash List.not_mem_nil other
    rw [hparent, hroot]
    exact hslashed
  have hlast := getLast?_join_trim_ne_slash _ hslash
  have hne : join (trim (trim (split path)).dropLast) ≠ [] := by
    intro hjoin
    have hsplit := split_join hnone hslash
    rw [hjoin] at hsplit
    exact hroot hsplit.symm
  rw [parent_eq_join hroot, append, if_neg (by simp [hne, hlast]), split_join_append hnone hslash,
    split_of_notMem hother]

/-- A path with another file name starts where the path starts. -/
theorem head?_withFileName {path : List Char} {name other : Segment} (hname : fileName? path = some name)
    (hother : '/' ∉ other) (hne : other ≠ []) :
    (withFileName path other).head? = some '/' ↔ path.head? = some '/' := by
  have hsplit := split_withFileName hname hother
  obtain ⟨htrim, hisName⟩ := trim_split_of_fileName? hname
  have hpath : path ≠ [] := by
    rintro rfl
    exact absurd (hname.symm.trans (show fileName? [] = none by decide)) (by simp)
  have hwith : withFileName path other ≠ [] := by
    intro hnil
    rw [hnil] at hsplit
    cases hfolder : trim (trim (split path)).dropLast with
    | nil => exact hne (by simpa [hfolder, split] using hsplit.symm)
    | cons first rest => simp [hfolder, split] at hsplit
  rw [head?_eq_slash_iff hwith, head?_eq_slash_iff hpath, hsplit, ← head?_trim (split path), htrim,
    List.dropLast_concat]
  cases (trim (split path)).dropLast with
  | nil =>
      have hsome : name ≠ [] := by
        rintro rfl
        exact absurd hisName (by decide)
      simp [trim, hne, hsome]
  | cons first rest => simp [trim]

/-! ## Rotated paths -/

theorem numbered_succ (path : List Char) (number : Nat) :
    numbered path (number + 1) =
      withFileName path (numberedName ((fileName? path).getD []) (number + 1)) := rfl

section FileName

variable {path : List Char} {name : Segment} (hname : fileName? path = some name)
include hname

theorem slash_notMem_of_fileName? : '/' ∉ name := by
  obtain ⟨htrim, -⟩ := trim_split_of_fileName? hname
  refine slash_notMem_of_mem_split (trim_subset (split path) ?_)
  rw [htrim]
  exact List.mem_append_right _ (List.mem_singleton_self name)

theorem isName_of_fileName? : isName name = true := (trim_split_of_fileName? hname).2

theorem split_numbered_succ (number : Nat) :
    split (numbered path (number + 1)) =
      trim (trim (split path)).dropLast ++ [numberedName name (number + 1)] := by
  rw [numbered_succ, hname]
  exact split_withFileName hname (slash_notMem_numberedName (slash_notMem_of_fileName? hname) _)

theorem fileName?_numbered (number : Nat) :
    fileName? (numbered path number) = some (nameAt name number) := by
  cases number with
  | zero => exact hname
  | succ number =>
      have hisName := isName_numberedName name (number + 1)
      have htrim := trim_append_name (isIdle_eq_false_of_isName hisName) (trim (trim (split path)).dropLast)
      rw [fileName?, split_numbered_succ hname, htrim, List.getLast?_concat]
      exact if_pos hisName

theorem parent_numbered (number : Nat) : parent (numbered path number) = parent path := by
  cases number with
  | zero => rfl
  | succ number =>
      have hidle := isIdle_eq_false_of_isName (isName_numberedName name (number + 1))
      have hfolder : trim (trim (split (numbered path (number + 1)))).dropLast =
          trim (trim (split path)).dropLast := by
        rw [split_numbered_succ hname, trim_append_name hidle, List.dropLast_concat, trim_trim]
      rw [parent, parent, hfolder]

theorem names_numbered (number : Nat) :
    names (numbered path number) = (names path).dropLast ++ [nameAt name number] := by
  have hpath : names path =
      ((trim (split path)).dropLast.filter fun segment => !isIdle segment) ++ [name] := by
    obtain ⟨htrim, hisName⟩ := trim_split_of_fileName? hname
    rw [names, ← filter_trim, htrim, List.filter_append, List.dropLast_concat]
    simp [isIdle_eq_false_of_isName hisName]
  cases number with
  | zero => rw [nameAt_zero, hpath, List.dropLast_concat]; exact hpath
  | succ number =>
      have hidle := isIdle_eq_false_of_isName (isName_numberedName name (number + 1))
      rw [hpath, List.dropLast_concat, names, split_numbered_succ hname, List.filter_append, filter_trim]
      simp [hidle, nameAt]

theorem head?_numbered (number : Nat) :
    (numbered path number).head? = some '/' ↔ path.head? = some '/' := by
  cases number with
  | zero => rfl
  | succ number =>
      have hisName := isName_numberedName name (number + 1)
      rw [numbered_succ, hname]
      exact head?_withFileName hname (slash_notMem_numberedName (slash_notMem_of_fileName? hname) _)
        fun hnil => absurd (hnil ▸ hisName) (by decide)

end FileName

section Rotated

variable {path : List Char} {folder : List Segment} {name : Segment}

theorem EndsIn.ne_nil (hpath : EndsIn path folder name) : path ≠ [] := by
  rintro rfl
  have hsplit := hpath.split_eq
  have hname := hpath.isName
  cases folder with
  | nil =>
      obtain rfl : [] = name := by simpa [split] using hsplit
      exact absurd hname (by decide)
  | cons first folder =>
      have hlength := congrArg List.length hsplit
      simp [split] at hlength

theorem EndsIn.fileName? (hpath : EndsIn path folder name) : fileName? path = some name := by
  have htrim := trim_append_name (isIdle_eq_false_of_isName hpath.isName) folder
  simp [Path.fileName?, hpath.split_eq, htrim, hpath.isName]

theorem EndsIn.names_eq (hpath : EndsIn path folder name) :
    names path = (folder.filter fun segment => !isIdle segment) ++ [name] := by
  rw [names, hpath.split_eq, List.filter_append]
  simp [isIdle_eq_false_of_isName hpath.isName]

theorem EndsIn.numbered_eq_append (hpath : EndsIn path folder name) :
    ∃ front, ∀ number, Path.numbered path (number + 1) = front ++ numberedName name (number + 1) := by
  by_cases hjoin : parent path = [] ∨ (parent path).getLast? = some '/'
  · refine ⟨parent path, fun number => ?_⟩
    rw [numbered_succ, hpath.fileName?, withFileName, hpath.fileName?, Option.getD_some,
      Option.isSome_some, if_pos rfl, append, if_pos hjoin]
  · refine ⟨parent path ++ ['/'], fun number => ?_⟩
    rw [numbered_succ, hpath.fileName?, withFileName, hpath.fileName?, Option.getD_some,
      Option.isSome_some, if_pos rfl, append, if_neg hjoin, List.append_assoc, List.singleton_append]

/-- Every rotated path ends in the name with its number. -/
theorem EndsIn.numbered (hpath : EndsIn path folder name) (number : Nat) :
    ∃ folder', EndsIn (numbered path number) folder' (nameAt name number) ∧
      (folder'.filter fun segment => !isIdle segment) =
        folder.filter (fun segment => !isIdle segment) := by
  cases number with
  | zero => exact ⟨folder, hpath, rfl⟩
  | succ number =>
      have hname : nameAt name (number + 1) = numberedName name (number + 1) := rfl
      have hsplit : split (Path.numbered path (number + 1)) =
          trim folder ++ [numberedName name (number + 1)] := by
        rw [split_numbered_succ hpath.fileName?, hpath.split_eq,
          trim_append_name (isIdle_eq_false_of_isName hpath.isName), List.dropLast_concat]
      have habove : above ∉ trim folder ++ [numberedName name (number + 1)] := by
        have hisName := isName_numberedName name (number + 1)
        rw [List.mem_append, List.mem_singleton]
        rintro (hfolder | hlast)
        · apply hpath.descends
          rw [hpath.split_eq]
          exact List.mem_append_left [name] (trim_subset folder hfolder)
        · rw [← hlast] at hisName
          exact absurd hisName (by decide)
      refine ⟨trim folder, ⟨hname ▸ hsplit, ?_, hsplit ▸ habove⟩, filter_trim folder⟩
      exact isName_nameAt hpath.isName (number + 1)

theorem EndsIn.names_numbered (hpath : EndsIn path folder name) (number : Nat) :
    names (Path.numbered path number) =
      (folder.filter fun segment => !isIdle segment) ++ [nameAt name number] := by
  rw [Path.names_numbered hpath.fileName?, hpath.names_eq, List.dropLast_concat]

theorem EndsIn.head?_numbered (hpath : EndsIn path folder name) (number : Nat) :
    (Path.numbered path number).head? = some '/' ↔ path.head? = some '/' :=
  Path.head?_numbered hpath.fileName? number

end Rotated

end LogRelay.Path
