import Tint.Proofs.Command.Delivery
import Tint.Proofs.Command.Results
set_option autoImplicit false

/-!
# Results that are written

A run that has come to its results writes them into the directory that the user names, one after the
other, and ends with the first that cannot be written.  What it writes is fixed before it writes
anything, so it does not matter whether a result goes to an input or to the rule file.  Each result
goes to a file directly inside the directory; at the end each of these holds the last result that
has been written to it, and nothing else has changed (`Execution.writesInto_of_result`).
-/

namespace Tint

/-! ## The directory has a name -/

/-- No option has an empty value. -/
def Options.Filled (o : Options) : Prop :=
  o.rules ≠ some [] ∧ o.output ≠ some [] ∧ o.settings ≠ some []

/-- A run is asked for with no empty value. -/
def Invocation.Filled : Invocation → Prop
  | .run o => o.Filled
  | _ => True

namespace Options

/-- What has been read holds no empty value. -/
def Reading.Filled : Reading → Prop
  | .options o => o.Filled
  | .wantsValue o _ => o.Filled
  | .ends answer => answer.Filled

variable {o o' : Options}

theorem filled_setValue? (h : o.Filled) {option : ValueOption} {v : Path}
    (hset : o.setValue? option v = some o') : o'.Filled := by
  unfold setValue? at hset
  split at hset
  · cases hset
  · rename_i hv
    have hfull : some v ≠ some [] := fun hnil => hv (.inl (Option.some.inj hnil))
    obtain ⟨hrules, houtput, hsettings⟩ := h
    cases option with
    | rules =>
      cases hset
      exact ⟨hfull, houtput, hsettings⟩
    | output =>
      cases hset
      exact ⟨hrules, hfull, hsettings⟩
    | settings =>
      cases hset
      exact ⟨hrules, houtput, hfull⟩

theorem filled_addFile? (h : o.Filled) {file : Path} (hadd : o.addFile? file = some o') :
    o'.Filled := by
  unfold addFile? at hadd
  split at hadd
  · cases hadd
  · cases hadd
    exact h

theorem filled_setFlag (h : o.Filled) (flag : FlagOption) : (o.setFlag flag).Filled := by
  unfold setFlag
  split
  · split
    · trivial
    · exact h
  · split
    · trivial
    · exact h
  · trivial
  · trivial

theorem filled_attached (h : o.Filled) (option : ValueOption) (v : Bytes) :
    (Reading.attached o option v).Filled := by
  unfold Reading.attached
  split
  · rename_i hset
    exact filled_setValue? h hset
  · trivial

theorem filled_readLong (h : o.Filled) (word : Bytes) : (readLong o word).Filled := by
  unfold readLong
  split
  · split
    · exact filled_attached h _ _
    · trivial
  · split
    · exact h
    · rename_i flag _
      have hflag := filled_setFlag h flag
      split
      · rename_i hrun
        rw [hrun] at hflag
        exact hflag
      · exact hflag
    · trivial

theorem filled_readShort (h : o.Filled) (letters : Bytes) : (readShort o letters).Filled := by
  induction letters generalizing o with
  | nil => exact h
  | cons letter rest ih =>
    rw [readShort]
    split
    · split
      · exact h
      · exact filled_attached h _ _
    · rename_i flag _
      have hflag := filled_setFlag h flag
      split
      · rename_i hrun
        rw [hrun] at hflag
        exact ih hflag
      · exact hflag
    · trivial

theorem filled_readArgument (h : o.Filled) (argument : Bytes) : (readArgument o argument).Filled := by
  unfold readArgument
  split
  · exact filled_readLong h _
  · split
    · exact filled_readShort h _
    · split
      · rename_i hadd
        exact filled_addFile? h hadd
      · trivial

theorem filled_readFiles (h : o.Filled) (files : List Bytes) : (readFiles o files).Filled := by
  induction files generalizing o with
  | nil => exact h
  | cons file rest ih =>
    rw [readFiles]
    split
    · rename_i hadd
      exact ih (filled_addFile? h hadd)
    · trivial

theorem filled_readFrom (h : o.Filled) (wanting : Option ValueOption) (arguments : List Bytes) :
    (readFrom o wanting arguments).Filled := by
  induction arguments generalizing o wanting with
  | nil =>
    rw [readFrom]
    split
    · trivial
    · exact h
  | cons argument rest ih =>
    cases wanting with
    | some option =>
      rw [readFrom]
      split
      · trivial
      · split
        · rename_i hset
          exact ih (filled_setValue? h hset) none
        · trivial
    | none =>
      rw [readFrom]
      split
      · exact filled_readFiles h rest
      · have hargument := filled_readArgument h argument
        split
        · rename_i hread
          rw [hread] at hargument
          exact ih hargument none
        · rename_i option hread
          rw [hread] at hargument
          exact ih hargument (some option)
        · rename_i hread
          rw [hread] at hargument
          exact hargument

/-- The directory that a user names to write to has a name. -/
theorem output_ne_nil {arguments : List Bytes} {directory : Path}
    (ho : Options.parse arguments = .run o) (hout : o.output = some directory) :
    directory ≠ [] := by
  have hempty : ({} : Options).Filled := by simp [Options.Filled]
  have hfilled : (Options.parse arguments).Filled := filled_readFrom hempty none arguments
  rw [ho] at hfilled
  rintro rfl
  exact hfilled.2.1 hout

end Options

/-! ## Writing -/

/-- An input that has been read has a name without slashes. -/
theorem Surroundings.HasRead.notMem_name {tree : FileTree} {stdin : Except Fault Text}
    {home : Option Text} {o : Options} {settings : Settings} {contents : RuleFile.Contents}
    {texts : List Text} (h : HasRead ⟨tree.read, stdin, home⟩ o settings contents texts)
    {source : InputSource} (hsource : source ∈ o.sources) : '/' ∉ source.name := by
  have hobstacles := obstacles_eq_nil_iff.2 ⟨settings, contents, texts, h⟩
  obtain ⟨text, htext⟩ := exists_fetch_of_obstacles_eq_nil hobstacles hsource
  exact source.notMem_name htext

namespace Execution

/-- The execution writes files, given by name and text, into a directory, and it gets as far as the
first `k` of them. -/
structure WritesInto (directory : Path) (tree : FileTree) (files : List (Path × Text)) (k : Nat)
    (x : Execution) : Prop where
  le_length : k ≤ files.length
  /-- they are written one after the other -/
  writes : FileTree.Writes directory tree (files.take k) x.tree
  /-- each of them goes to a place of its name directly inside the directory -/
  inside : ∀ file ∈ files.take k, ∃ parent, tree.locate directory = .ok parent ∧
    tree.node? parent = some .directory ∧
    tree.locate (Path.join directory file.1) = .ok (parent ++ [file.1])
  /-- of those of one name the last one stays -/
  holds : ∀ name file, ((files.take k).filter (·.1 == name)).getLast? = some file →
    x.tree.read (Path.join directory name) = .ok file.2
  /-- nothing changes at the places that none of them goes to -/
  untouched : ∀ place,
    (∀ file ∈ files.take k, tree.locate (Path.join directory file.1) ≠ .ok place) →
      x.tree.node? place = tree.node? place
  /-- the execution ends well if these are all -/
  complete : k = files.length → x.exit = 0
  /-- otherwise it fails because the next one cannot be written -/
  stopped : ∀ file, files[k]? = some file → x.exit = 1 ∧
    ∃ fault, x.tree.write (Path.join directory file.1) file.2 = .error fault
  stdout_eq : x.stdout = []

/-- The files of results are those of their texts under the names of their inputs. -/
theorem map_file_resultOf {s : Surroundings} {o : Options} {settings : Settings}
    {contents : RuleFile.Contents} {texts : List Text} (h : s.HasRead o settings contents texts) :
    (o.sources.map (s.resultOf o contents.rules)).map RunResult.file =
      (o.sources.map fun source => Text.bytes (source.name ++ ".html".toList)).zip
        (texts.map (o.finished settings contents.rules)) := by
  rw [← h.map_text, List.map_map, List.map_map, List.zip_map']
  rfl

/-- An execution that ends as a delivery of results does writes the files of the results. -/
theorem exists_writesInto {directory : Path} {tree : FileTree} {results : List RunResult}
    {x : Execution} (hdirectory : directory ≠ []) (hplain : ∀ r ∈ results, '/' ∉ r.name)
    (htree : x.tree = (deliver directory tree results).tree)
    (hexit : x.exit = if (deliver directory tree results).failure.isNone then 0 else 1)
    (hstdout : x.stdout = []) :
    ∃ k, WritesInto directory tree (results.map RunResult.file) k x := by
  obtain ⟨k, hk, hwrites, hall, hnext⟩ := writes_deliver directory tree results
  rw [← htree] at hwrites hnext
  rw [← List.length_map RunResult.file] at hk hall
  have hnames : ∀ file ∈ (results.map RunResult.file).take k, Path.IsFileName file.1 :=
    fun file hfile => isFileName_of_mem_map_file hplain file (List.mem_of_mem_take hfile)
  refine ⟨k, {
    le_length := hk
    writes := hwrites
    inside := fun file hfile => ?_
    holds := fun _ _ hlast => hwrites.read_last hnames hlast
    untouched := fun _ hne => hwrites.node?_of_ne hne
    complete := fun hk => ?_
    stopped := fun file hfile => ?_
    stdout_eq := hstdout }⟩
  · obtain ⟨place, hplace⟩ := hwrites.exists_locate hfile
    obtain ⟨parent, hparent, rfl, hlocate⟩ := FileTree.locate_join (hnames file hfile) hplace
    exact ⟨parent, hlocate hdirectory, hparent, hplace⟩
  · cases hfailure : (deliver directory tree results).failure with
    | none => rw [hexit, hfailure]; rfl
    | some fault =>
      -- there would be a result behind the last one
      obtain ⟨r, hr, -⟩ := hnext fault hfailure
      rw [hk, List.length_map, List.getElem?_eq_none (Nat.le_refl _)] at hr
      cases hr
  · cases hfailure : (deliver directory tree results).failure with
    | none =>
      rw [hall hfailure, List.getElem?_eq_none (Nat.le_refl _)] at hfile
      cases hfile
    | some fault =>
      obtain ⟨r, hr, hfault⟩ := hnext fault hfailure
      rw [List.getElem?_map, hr] at hfile
      cases hfile
      exact ⟨by rw [hexit, hfailure]; rfl, fault, hfault⟩

/-- A run that comes to its results, and has a directory to write to, has read its settings, its rule
file and all of its inputs before it writes.  It writes what it makes of the inputs into the
directory, one after the other in their order, and stops well behind the last one or with a failure
at the first that cannot be written. -/
theorem writesInto_of_result {tree : FileTree} {stdin : Except Fault Text} {home : Option Text}
    {arguments : List Bytes} {o : Options} {directory : Path} {results : List RunResult}
    (ho : Options.parse arguments = .run o) (hout : o.output = some directory)
    (hresult : (Surroundings.run ⟨tree.read, stdin, home⟩ o).result = .ok results) :
    ∃ settings contents texts,
      Surroundings.HasRead ⟨tree.read, stdin, home⟩ o settings contents texts ∧
      (∀ source ∈ o.sources, '/' ∉ source.name) ∧
      ∃ k, WritesInto directory tree
        ((o.sources.map fun source => Text.bytes (source.name ++ ".html".toList)).zip
          (texts.map (o.finished settings contents.rules))) k
        (ofArguments tree stdin home arguments) := by
  obtain ⟨settings, contents, texts, hread⟩ := Surroundings.hasRead_of_result hresult
  refine ⟨settings, contents, texts, hread, fun source => hread.notMem_name, ?_⟩
  rw [ofArguments_of_run ho, ofOptions, hread.result_run, hout, ← map_file_resultOf hread]
  dsimp only
  refine exists_writesInto (Options.output_ne_nil ho hout) (fun r hr => ?_) ?_ ?_ ?_
  · obtain ⟨source, hsource, rfl⟩ := List.mem_map.1 hr
    exact hread.notMem_name hsource
  · split <;> rfl
  · split <;> simp_all
  · split <;> rfl

/-- A tree with a rule file, two more inputs and a directory. -/
def clutter : FileTree :=
  let w : Path := .ofString "w"
  ((((FileTree.empty [w]).put [w, .ofString "x.html"]
    (.text "%highlight voice: snow-bud v1.3%\nx #111".toList)).put [w, .ofString "x"]
    (.text "x".toList)).put [w, .ofString "d"] (.text [])).put [w, .ofString "d.html"] .directory

set_option maxRecDepth 4096 in
/-- The result of the first input goes to the rule file, which is the second input as well, and the
one of the third cannot be written.  The second one is still made of the rule file as it was. -/
theorem writesInto_of_result_aliased :
    let x := ofArguments clutter (.ok []) none
      (["-r", "x.html", "-o", ".", "x", "x.html", "d"].map Bytes.ofString)
    x.exit = 1 ∧ x.stdout = [] ∧
      x.tree.read (.ofString "./x.html") = .ok "<span style=\"color:#111\">x</span>\n".toList ∧
      x.tree.read (.ofString "./x.html.html") = .ok
        "%highlight voice: snow-bud v1.3%\n<span style=\"color:#111\">x</span> #111\n".toList := by
  intro x
  have hparse : Options.parse (["-r", "x.html", "-o", ".", "x", "x.html", "d"].map Bytes.ofString) =
      .run { rules := Bytes.ofString "x.html", output := Bytes.ofString ".",
             files := ["x", "x.html", "d"].map Bytes.ofString } := rfl
  have hresult : (Surroundings.run ⟨clutter.read, .ok [], none⟩
      { rules := Bytes.ofString "x.html", output := Bytes.ofString ".",
        files := ["x", "x.html", "d"].map Bytes.ofString }).result = .ok _ := rfl
  have hexit : x.exit = 1 := rfl
  have hcontents : RuleFile.read "%highlight voice: snow-bud v1.3%\nx #111".toList =
      .ok ⟨.ofDirectives [.keyword "x".toList "#111".toList], []⟩ := rfl
  have hfirst : clutter.read (.ofString "x") = .ok "x".toList := rfl
  have hsecond : clutter.read (.ofString "x.html") =
      .ok "%highlight voice: snow-bud v1.3%\nx #111".toList := rfl
  have hthird : clutter.read (.ofString "d") = .ok [] := rfl
  obtain ⟨settings, contents, texts, ⟨hsettings, hrules, htexts⟩, -, k, hwrites⟩ :=
    writesInto_of_result hparse rfl hresult
  cases hsettings with
  | named named => cases named
  | home _ hasHome => cases hasHome
  | default =>
    obtain ⟨path, file, hpath, hfile, hread⟩ := hrules
    cases hpath
    cases hsecond.symm.trans hfile
    cases hcontents.symm.trans hread
    rcases htexts with _ | ⟨ha, _ | ⟨hb, _ | ⟨hc, _ | _⟩⟩⟩
    cases hfirst.symm.trans ha
    cases hsecond.symm.trans hb
    cases hthird.symm.trans hc
    obtain rfl : k = 2 := by
      match k, hwrites with
      | 0, hwrites =>
        obtain ⟨-, fault, hfault⟩ := hwrites.stopped _ rfl
        cases hfault
      | 1, hwrites =>
        obtain ⟨-, fault, hfault⟩ := hwrites.stopped _ rfl
        cases hfault
      | 2, _ => rfl
      | 3, hwrites => cases hexit.symm.trans (hwrites.complete rfl)
      | k + 4, hwrites => exact absurd hwrites.le_length (by simp [Options.sources])
    exact ⟨hexit, hwrites.stdout_eq, (hwrites.holds (.ofString "x.html") _ rfl).trans rfl,
      (hwrites.holds (.ofString "x.html.html") _ rfl).trans rfl⟩

end Execution

end Tint
