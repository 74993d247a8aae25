import LogRelay.Proofs.Sink.Call

/-!
# How a sink divides its log

What a sink has written is one stream of bytes: first the files it found, then the lines in the order of
the calls. The files discarded by rotations and the files still there, read one after the other, are
that stream cut between lines. A file that a rotation began is small enough or has a single line.
-/

namespace LogRelay

/-- The history of one file of a log: what it held before, unless a rotation began it, and the lines it
was given. -/
structure Volume where
  /-- What the file held when the sink was opened; nothing is said for a file begun by a rotation. -/
  before : Option Bytes
  /-- The lines written to the file. -/
  lines : List Bytes
deriving DecidableEq, Repr

namespace Volume

/-- What was put into the file, in order. -/
def pieces (volume : Volume) : List Bytes := volume.before.toList ++ volume.lines

/-- What the file holds. -/
def content (volume : Volume) : Bytes := volume.pieces.flatten

/-- The file with one more line. -/
def add (volume : Volume) (line : Bytes) : Volume :=
  { volume with lines := volume.lines ++ [line] }

/-- The file has lines, and they fit into the size, or it has one line only. -/
structure Fits (volume : Volume) (maxSize : Nat) : Prop where
  /-- There is a line. -/
  lines_ne_nil : volume.lines ≠ []
  /-- No line is empty. -/
  nil_notMem : [] ∉ volume.lines
  /-- Only a single line may be larger than the size. -/
  length_le : volume.content.length ≤ maxSize ∨ volume.lines.length = 1

@[simp]
theorem pieces_add (volume : Volume) (line : Bytes) :
    (volume.add line).pieces = volume.pieces ++ [line] := by
  simp [pieces, add]

@[simp]
theorem content_add (volume : Volume) (line : Bytes) :
    (volume.add line).content = volume.content ++ line := by
  simp [content]

theorem Fits.content_ne_nil {volume : Volume} {maxSize : Nat} (hfits : volume.Fits maxSize) :
    volume.content ≠ [] := by
  intro hnil
  obtain ⟨line, rest, hlines⟩ := List.exists_cons_of_ne_nil hfits.lines_ne_nil
  have hmem : line ∈ volume.lines := by rw [hlines]; exact List.mem_cons_self
  have hempty : line = [] := by
    apply List.flatten_eq_nil_iff.1 hnil
    exact List.mem_append_right _ hmem
  exact hfits.nil_notMem (hempty ▸ hmem)

theorem fits_single {line : Bytes} (hline : line ≠ []) (maxSize : Nat) :
    Fits ⟨none, [line]⟩ maxSize :=
  ⟨by simp, by simpa using Ne.symm hline, .inr rfl⟩

theorem Fits.add {volume : Volume} {maxSize : Nat} (hfits : volume.Fits maxSize) {line : Bytes}
    (hline : line ≠ []) (hroom : volume.content.length + line.length ≤ maxSize) :
    (volume.add line).Fits maxSize := by
  refine ⟨by simp [Volume.add], ?_, .inl ?_⟩
  · intro hmem
    rcases List.mem_append.1 hmem with hbefore | hlast
    · exact hfits.nil_notMem hbefore
    · exact hline (List.mem_singleton.1 hlast).symm
  · rw [content_add, List.length_append]
    exact hroom

end Volume

/-! ## Runs -/

namespace SinkState

/-- The volumes are the histories of the files discarded and of those still there. -/
structure Records (state : SinkState) (gone : List Bytes) (volumes : List Volume) : Prop where
  /-- Their contents are those of the files. -/
  contents_eq : volumes.map Volume.content = gone ++ state.logFiles
  /-- Files begun by a rotation are small enough. -/
  fits : ∀ volume ∈ volumes, volume.before = none → volume.Fits state.sink.maxSize

/-- What a call makes the sink discard. -/
def discardedBy (state : SinkState) (call : SinkCall) : List Bytes :=
  if state.rotatesOn call then state.discarded else []

variable {state : SinkState} {gone : List Bytes} {volumes : List Volume}

theorem records_logFiles (state : SinkState) :
    state.Records [] (state.logFiles.map fun content => ⟨some content, []⟩) := by
  refine ⟨?_, ?_⟩
  · rw [List.map_map, List.nil_append]
    simp [Function.comp_def, Volume.content, Volume.pieces]
  · intro volume hvolume hbefore
    obtain ⟨content, -, rfl⟩ := List.mem_map.1 hvolume
    exact absurd hbefore (by simp)

/-- A line that there is room for goes to the last volume. -/
theorem Records.add {next : SinkState} (hrecords : state.Records gone volumes)
    (hmoored : state.Moored) {line : Bytes} (hline : line ≠ [])
    (hroom : state.isFull line.length = false) (hsettings : state.sink.SameSettings next.sink)
    (hrotated : next.rotatedFiles = state.rotatedFiles)
    (hactive : next.active = state.active ++ line) :
    ∃ volumes', next.Records gone volumes' ∧
      volumes'.map Volume.before = volumes.map Volume.before ∧
      volumes'.flatMap Volume.pieces = volumes.flatMap Volume.pieces ++ [line] := by
  have hcontents := hrecords.contents_eq
  rw [logFiles, ← List.append_assoc, List.map_eq_append_iff] at hcontents
  obtain ⟨front, back, rfl, hfront, hback⟩ := hcontents
  obtain ⟨last, rfl, hlast⟩ := List.map_eq_singleton_iff.1 hback
  refine ⟨front ++ [last.add line], ⟨?_, ?_⟩, ?_, ?_⟩
  · rw [List.map_append, hfront, List.map_singleton, Volume.content_add, hlast, logFiles, hrotated,
      hactive, List.append_assoc]
  · intro volume hvolume hbefore
    rw [hsettings.maxSize_eq]
    rcases List.mem_append.1 hvolume with hmem | hmem
    · exact hrecords.fits volume (List.mem_append_left _ hmem) hbefore
    · obtain rfl := List.mem_singleton.1 hmem
      have hfits := hrecords.fits last (List.mem_append_right _ List.mem_cons_self) hbefore
      apply hfits.add hline
      have hpos : 0 < last.content.length := List.length_pos_iff.2 hfits.content_ne_nil
      rw [hlast, ← hmoored.size_eq] at hpos ⊢
      simp only [isFull, Bool.and_eq_false_iff, decide_eq_false_iff_not] at hroom
      omega
  · simp [Volume.add]
  · simp

theorem Records.begin {next : SinkState} (hrecords : state.Records gone volumes) {line : Bytes}
    (hline : line ≠ []) (hsettings : state.sink.SameSettings next.sink)
    (hrotated : state.discarded ++ next.rotatedFiles = state.rotatedFiles ++ [state.active])
    (hactive : next.active = line) :
    next.Records (gone ++ state.discarded) (volumes ++ [⟨none, [line]⟩]) := by
  refine ⟨?_, ?_⟩
  · rw [List.map_append, hrecords.contents_eq, logFiles, logFiles, ← hrotated, hactive]
    simp [Volume.content, Volume.pieces]
  · intro volume hvolume hbefore
    rw [hsettings.maxSize_eq]
    rcases List.mem_append.1 hvolume with hmem | hmem
    · exact hrecords.fits volume hmem hbefore
    · rw [List.mem_singleton.1 hmem]
      exact Volume.fits_single hline _

/-- Every call that succeeds keeps the volumes, adding its line to the last or beginning a new one. -/
theorem Records.call (hrecords : state.Records gone volumes) (hmoored : state.Moored)
    {call : SinkCall} (hcall : state.Succeeds call) :
    ∃ volumes', (state.call call).Records (gone ++ state.discardedBy call) volumes' ∧
      volumes'.map Volume.before =
        volumes.map Volume.before ++ List.replicate (if state.rotatesOn call then 1 else 0) none ∧
      volumes'.flatMap Volume.pieces =
        volumes.flatMap Volume.pieces ++ (call.line? state.sink).toList := by
  obtain ⟨-, hsettings, hfiles⟩ := hmoored.call hcall
  cases hline : call.line? state.sink with
  | none =>
      have hquiet : state.rotatesOn call = false := by rw [rotatesOn, hline]
      rw [hline] at hfiles
      refine ⟨volumes, ⟨?_, ?_⟩, by simp [hquiet], by simp⟩
      · rw [hrecords.contents_eq, hfiles, discardedBy, hquiet]
        simp
      · rw [hsettings.maxSize_eq]
        exact hrecords.fits
  | some line =>
      have hne := SinkCall.line_ne_nil hline
      have hrotatesOn : state.rotatesOn call = state.isFull line.length := by rw [rotatesOn, hline]
      rw [hline] at hfiles
      cases hfull : state.isFull line.length with
      | false =>
          simp only [hfull, Bool.false_eq_true, if_false] at hfiles
          obtain ⟨volumes', hnext, hbefore, hpieces⟩ :=
            hrecords.add hmoored hne hfull hsettings hfiles.1 hfiles.2
          refine ⟨volumes', ?_, ?_, by simpa using hpieces⟩
          · simpa [discardedBy, hrotatesOn, hfull] using hnext
          · simpa [hrotatesOn, hfull] using hbefore
      | true =>
          simp only [hfull, if_true] at hfiles
          refine ⟨volumes ++ [⟨none, [line]⟩], ?_, ?_, ?_⟩
          · rw [discardedBy, hrotatesOn, hfull, if_pos rfl]
            exact hrecords.begin hne hsettings hfiles.1 hfiles.2
          · simp [hrotatesOn, hfull]
          · simp [Volume.pieces]

/-- Every run of calls that succeed keeps the volumes, adding its lines and beginning new ones. -/
theorem Records.run (hrecords : state.Records gone volumes) (hmoored : state.Moored)
    {calls : List SinkCall} (hcalls : AllSucceed calls state) :
    ∃ volumes', (SinkState.run calls state).Records (gone ++ discards calls state) volumes' ∧
      state.sink.SameSettings (SinkState.run calls state).sink ∧
      volumes'.map Volume.before =
        volumes.map Volume.before ++ List.replicate (rotations calls state) none ∧
      volumes'.flatMap Volume.pieces =
        volumes.flatMap Volume.pieces ++ calls.filterMap (SinkCall.line? state.sink) := by
  induction calls generalizing state gone volumes with
  | nil =>
      refine ⟨volumes, ?_, .refl _, ?_, ?_⟩
      · simpa [SinkState.run, discards] using hrecords
      · simp [rotations]
      · simp
  | cons call rest induction =>
      obtain ⟨hcall, hrest⟩ := hcalls
      obtain ⟨hmooredNext, hsettings, -⟩ := hmoored.call hcall
      obtain ⟨middle, hmiddle, hmiddleBefore, hmiddlePieces⟩ := hrecords.call hmoored hcall
      obtain ⟨last, hlast, hlastSettings, hlastBefore, hlastPieces⟩ := induction hmiddle hmooredNext hrest
      have hlines : rest.filterMap (SinkCall.line? (state.call call).sink) =
          rest.filterMap (SinkCall.line? state.sink) :=
        congrArg (fun line? => rest.filterMap line?) (funext (SinkCall.line?_congr hsettings))
      refine ⟨last, ?_, hsettings.trans hlastSettings, ?_, ?_⟩
      · rw [List.append_assoc] at hlast
        exact hlast
      · rw [hlastBefore, hmiddleBefore, List.append_assoc, List.replicate_append_replicate,
          rotations]
      · rw [hlastPieces, hmiddlePieces, hlines, List.append_assoc, List.filterMap_cons]
        cases call.line? state.sink <;> rfl

end SinkState

/-- The files of a sink divide its log. Opened in any sound tree whose files at the path and at the
rotated paths are regular or absent, and called in any order, the sink leaves one volume for each file it
found and each file a rotation began. The volumes hold what the discarded files held and what the files
still there hold, the oldest first; they are made of the files found and the lines written, in this
order and each in one volume; and those begun by a rotation are at most as large as allowed, unless a
single line fills them. -/
theorem Sink.run_divides_log {name path : String} {format : LogFormat} {maxSize maxFiles : Nat}
    {files opened : FileTree} {sink : Sink} (hsound : files.Sound)
    (hdescends : Path.above ∉ Path.split path.toList)
    (hfiles : files.HoldsFiles path.toList maxFiles)
    (hstart : Sink.start name path format maxSize maxFiles files = (opened, .ok sink))
    (events : Array Event) (calls : List SinkCall)
    (hcalls : SinkState.AllSucceed calls ⟨sink, opened, events⟩) :
    let state : SinkState := ⟨sink, opened, events⟩
    let found := files.logFiles path.toList maxFiles
    let lines := calls.filterMap (SinkCall.line? sink)
    let gone := SinkState.discards calls state
    let left := (SinkState.run calls state).logFiles
    gone.flatten ++ left.flatten = found.flatten ++ lines.flatten ∧
      ∃ volumes : List Volume,
        volumes.map Volume.content = gone ++ left ∧
        volumes.flatMap Volume.pieces = found ++ lines ∧
        volumes.map Volume.before =
          found.map some ++ List.replicate (SinkState.rotations calls state) none ∧
        ∀ volume ∈ volumes, volume.before = none →
          volume.content.length ≤ maxSize ∨ volume.lines.length = 1 := by
  intro state found lines gone left
  obtain ⟨hmoored, hlog, rfl⟩ := Sink.moored_start hsound hdescends hfiles hstart events
  have hrecords : state.Records [] (found.map fun content => ⟨some content, []⟩) := by
    have hopened := state.records_logFiles
    rwa [hlog] at hopened
  obtain ⟨volumes, hfinal, hsettings, hbefore, hpieces⟩ := hrecords.run hmoored hcalls
  have hcontents : volumes.map Volume.content = gone ++ left := hfinal.contents_eq
  have hfound : volumes.flatMap Volume.pieces = found ++ lines := by
    rw [hpieces, List.flatMap_map]
    simp [Volume.pieces, lines, state]
  refine ⟨?_, volumes, hcontents, hfound, ?_, ?_⟩
  · have hflatten : (volumes.map Volume.content).flatten =
        (volumes.flatMap Volume.pieces).flatten := by
      simp only [List.flatMap, List.flatten_flatten, List.map_map]
      rfl
    rw [hcontents, hfound, List.flatten_append, List.flatten_append] at hflatten
    exact hflatten
  · rw [hbefore, List.map_map]
    rfl
  · intro volume hvolume hnone
    have hfits := hfinal.fits volume hvolume hnone
    rw [hsettings.maxSize_eq] at hfits
    exact hfits.length_le

/-- A sink that keeps one rotated file and has just been opened in the initial tree. -/
def Sink.small : Sink :=
  ⟨"app", "app.log", .text, 60, 1, .debug, .ofHandle ⟨.file 0, none⟩, 0⟩

/-- The initial tree with the empty file of that sink. -/
def FileTree.withLog : FileTree :=
  { FileTree.initial with
    entries := (["home".toList, "app.log".toList], .leaf (.file 0)) :: FileTree.initial.entries
    contents := #[[]] }

theorem Sink.start_small : Sink.start "app" "app.log" .text 60 1 FileTree.initial =
    (FileTree.withLog, .ok Sink.small) := rfl

theorem FileTree.holdsFiles_initial : FileTree.initial.HoldsFiles "app.log".toList 1 := by
  intro number hle hpresent
  have habsent : ∀ number ≤ 1,
      FileTree.initial.present (Path.numbered "app.log".toList number) = false := by decide
  rw [habsent number hle] at hpresent
  exact absurd hpresent (by simp)

theorem FileTree.sound_withLog : FileTree.withLog.Sound :=
  (Sink.moored_start sound_initial (by decide) holdsFiles_initial Sink.start_small #[]).1.shelf.sound

/-- Three lines, of which no two fit into one file of that sink. -/
def SinkCall.threeLines : List SinkCall :=
  [.write ⟨1, 1⟩ ⟨.info, "one", ⟨0⟩⟩, .flush, .write ⟨1, 1⟩ ⟨.error, "two", ⟨0⟩⟩,
    .write ⟨1, 1⟩ ⟨.info, "three", ⟨0⟩⟩]

/-- Of three lines the first is discarded, and the other two are in files of their own. -/
theorem Sink.threeLines_divide_log :
    let state : SinkState := ⟨Sink.small, FileTree.withLog, #[]⟩
    let line := fun text : String => Utf8.bytes ("[1970-01-01 00:00:00.000] " ++ text ++ "\n")
    SinkState.discards SinkCall.threeLines state = [line "[info] one"] ∧
      (SinkState.run SinkCall.threeLines state).logFiles =
        [line "[error] two", line "[info] three"] ∧
      ∃ volumes : List Volume,
        volumes.map Volume.content = [line "[info] one", line "[error] two", line "[info] three"] ∧
        ∀ volume ∈ volumes, volume.before = none →
          volume.content.length ≤ 60 ∨ volume.lines.length = 1 := by
  intro state line
  have hgone : SinkState.discards SinkCall.threeLines state = [line "[info] one"] := by
    decide +kernel
  have hleft : (SinkState.run SinkCall.threeLines state).logFiles =
      [line "[error] two", line "[info] three"] := by decide +kernel
  have hcalls : SinkState.AllSucceed SinkCall.threeLines state := by decide +kernel
  obtain ⟨-, volumes, hcontents, -, -, hfits⟩ :=
    Sink.run_divides_log FileTree.sound_initial (by decide) FileTree.holdsFiles_initial
      Sink.start_small #[] SinkCall.threeLines hcalls
  refine ⟨hgone, hleft, volumes, ?_, hfits⟩
  rw [hcontents, hgone, hleft]
  rfl

end LogRelay
