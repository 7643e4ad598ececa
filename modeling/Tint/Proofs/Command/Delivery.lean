import Tint.Proofs.Command.Executions
import Tint.Proofs.Command.Obstacles
import Tint.Proofs.Files.Writes
import Tint.Proofs.Text.Slice
set_option autoImplicit false

/-!
# Results in files

With a directory to write to, the result of every input goes to the file of the directory that has
the input's name, whatever directory the input is in.  The name is the input's file name read as a
text, with replacement characters for what is not UTF-8.  Inputs whose names read differently get
files of their own, and each finds its own result there.  Inputs whose names read alike share a file,
and the last of them keeps it, as results are written one after the other in the order of the inputs
(`Execution.read_output`).
-/

namespace Tint

/-! ## Names of results -/

namespace Path

/-- What is read of a name holds no slash that the name does not hold. -/
theorem notMem_display {name : Path} (h : separator ∉ name) : '/' ∉ name.display := by
  intro hmem
  have hslash : [separator] <:+: name := Bytes.isInfix_of_mem_decode hmem (by decide)
  exact h (hslash.subset List.mem_cons_self)

/-- No byte of another character is that of a slash. -/
theorem notMem_bytes {t : Text} (h : '/' ∉ t) : separator ∉ t.bytes := by
  intro hmem
  obtain ⟨c, hc, hbyte⟩ := List.mem_flatMap.1 hmem
  rcases Nat.lt_or_ge c.toNat 128 with hascii | hlong
  · rw [Text.utf8EncodeChar_of_lt hascii, List.mem_singleton] at hbyte
    have hnat := congrArg UInt8.toNat hbyte
    rw [UInt8.toNat_ofNat', Nat.mod_eq_of_lt (by omega)] at hnat
    have hslash : c = '/' := Char.toNat_inj.1 hnat.symm
    exact h (hslash ▸ hc)
  · exact absurd (Text.le_of_mem_utf8EncodeChar hlong hbyte) (by decide)

theorem outputName_inj {a b : Text} : outputName a = outputName b ↔ a = b :=
  Bytes.bytes_inj.trans (List.append_left_inj _)

theorem isFileName_outputName {name : Text} (h : '/' ∉ name) : IsFileName (outputName name) := by
  have hlength : 5 ≤ (outputName name).length := by
    rw [outputName, Text.length_bytes, Text.size_append]
    exact Nat.le_add_left 5 _
  refine ⟨?_, ?_, ?_, notMem_bytes fun hmem => ?_⟩
  · intro heq
    simp [heq] at hlength
  · intro heq
    simp [heq, dot] at hlength
  · intro heq
    simp [heq, dots] at hlength
  · rcases List.mem_append.1 hmem with hmem | hmem
    · exact h hmem
    · exact absurd hmem (by decide)

end Path

/-- An input file that can be read goes by its file name as it is shown. -/
theorem FileTree.map_display_fileName?_of_read {tree : FileTree} {path : Path} {held : Text}
    (h : tree.read path = .ok held) : path.fileName?.map Path.display = some path.inputName := by
  obtain ⟨-, name, hname, -⟩ := exists_fileName?_of_read h
  rw [Path.inputName, hname]
  rfl

/-- An input that can be read has a name without slashes. -/
theorem InputSource.notMem_name {tree : FileTree} {stdin : Except Fault Text} {home : Option Text}
    {source : InputSource} {text : Text}
    (h : Surroundings.fetch ⟨tree.read, stdin, home⟩ source = .ok text) : '/' ∉ source.name := by
  cases source with
  | stdin => decide
  | file path =>
    obtain ⟨-, name, hname, hplain, -⟩ := FileTree.exists_fileName?_of_read h
    rw [InputSource.name, Path.inputName, hname]
    exact Path.notMem_display hplain.notMem

/-! ## Delivery -/

variable {directory : Path} {tree : FileTree}

/-- The file that a result is written to, by its name in the directory, and what it holds then. -/
def RunResult.file (r : RunResult) : Path × Text := (Path.outputName r.name, r.text)

theorem isFileName_of_mem_map_file {results : List RunResult} (hplain : ∀ r ∈ results, '/' ∉ r.name) :
    ∀ file ∈ results.map RunResult.file, Path.IsFileName file.1 := by
  intro file hfile
  obtain ⟨r, hr, rfl⟩ := List.mem_map.1 hfile
  exact Path.isFileName_outputName (hplain r hr)

/-- A delivery writes its results in sequence, and comes to the end or to one that cannot be
written. -/
theorem writes_deliver (directory : Path) (tree : FileTree) (results : List RunResult) :
    ∃ k ≤ results.length,
      FileTree.Writes directory tree ((results.map RunResult.file).take k)
        (deliver directory tree results).tree ∧
      ((deliver directory tree results).failure = none → k = results.length) ∧
      ∀ fault, (deliver directory tree results).failure = some fault → ∃ r, results[k]? = some r ∧
        (deliver directory tree results).tree.write (r.pathIn directory) r.text = .error fault := by
  induction results generalizing tree with
  | nil =>
    refine ⟨0, Nat.le_refl 0, .nil tree, fun _ => rfl, fun fault h => ?_⟩
    cases h
  | cons r rest ih =>
    rw [deliver]
    cases hwrite : tree.write (r.pathIn directory) r.text with
    | error fault =>
      refine ⟨0, Nat.zero_le _, .nil tree, fun h => ?_, fun other hother => ?_⟩
      · cases h
      · cases hother
        exact ⟨r, rfl, hwrite⟩
    | ok after =>
      obtain ⟨k, hk, hwrites, hall, hnext⟩ := ih after
      exact ⟨k + 1, Nat.succ_le_succ hk, .cons hwrite hwrites,
        fun h => congrArg (· + 1) (hall h), hnext⟩

/-- After a delivery the file of a name holds the last result that has the name. -/
theorem read_deliver {results : List RunResult} {name : Text} {r : RunResult}
    (h : (deliver directory tree results).failure = none)
    (hplain : ∀ r' ∈ results, '/' ∉ r'.name)
    (hlast : (results.filter (·.name == name)).getLast? = some r) :
    (deliver directory tree results).tree.read (Path.join directory (Path.outputName name)) =
      .ok r.text := by
  obtain ⟨k, -, hwrites, hall, -⟩ := writes_deliver directory tree results
  rw [hall h, List.take_of_length_le (Nat.le_of_eq (List.length_map _))] at hwrites
  have hfile : ((results.map RunResult.file).filter (·.1 == Path.outputName name)).getLast? =
      some r.file := by
    have hname : ((·.1 == Path.outputName name) ∘ RunResult.file) = (·.name == name) := by
      funext r'
      rw [Bool.eq_iff_iff, Function.comp, beq_iff_eq, beq_iff_eq]
      exact Path.outputName_inj
    rw [List.filter_map, hname, List.getLast?_map, hlast]
    rfl
  exact hwrites.read_last (isFileName_of_mem_map_file hplain) hfile

/-! ## Executions -/

namespace Surroundings

/-- The text is the result of an input file: what the file holds, prepared and painted with the rules
of the run, in the wrapper of the run. -/
def IsResult (s : Surroundings) (o : Options) (path : Path) (text : Text) : Prop :=
  ∃ content rulesPath contents, s.read path = .ok content ∧ s.rulesPath? o = some rulesPath ∧
    RuleFile.load (s.read rulesPath) = .ok contents ∧
    text = (s.settled o).wrapped (contents.rules.render ((s.settled o).prepare content)) ++ ['\n']

variable {s : Surroundings} {o : Options}

theorem isResult_text_resultOf {path rulesPath : Path} {content : Text}
    {contents : RuleFile.Contents}
    (hread : s.read path = .ok content) (hrules : s.rulesPath? o = some rulesPath)
    (hload : RuleFile.load (s.read rulesPath) = .ok contents) :
    s.IsResult o path (s.resultOf o contents.rules (.file path)).text := by
  refine ⟨content, rulesPath, contents, hread, hrules, hload, ?_⟩
  have hcontent : (s.fetch (.file path)).toOption.getD [] = content := by
    rw [fetch, hread]
    rfl
  rw [resultOf, hcontent]
  rfl

end Surroundings

namespace Execution

/-- What a run with a directory to write to that ends well has gone through. -/
theorem of_exit_eq_zero {s : Surroundings} {tree : FileTree} {o : Options} {directory : Path}
    (hout : o.output = some directory) (hexit : (ofOptions s tree o).exit = 0) :
    ∃ rulesPath contents, s.rulesPath? o = some rulesPath ∧
      RuleFile.load (s.read rulesPath) = .ok contents ∧ s.obstacles o = [] ∧
      let delivery := deliver directory tree (o.sources.map (s.resultOf o contents.rules))
      delivery.failure = none ∧ (ofOptions s tree o).tree = delivery.tree := by
  cases hobstacles : s.obstacles o with
  | cons e later =>
    rw [ofOptions, Surroundings.result_run_of_obstacles_cons hobstacles] at hexit
    cases hexit
  | nil =>
    obtain ⟨path, contents, hpath, hload, hresult⟩ :=
      Surroundings.result_run_of_obstacles_nil hobstacles
    refine ⟨path, contents, hpath, hload, rfl, ?_⟩
    rw [ofOptions, hresult] at hexit ⊢
    dsimp only at hexit ⊢
    rw [hout] at hexit ⊢
    dsimp only at hexit ⊢
    split at hexit
    · rename_i hfailure
      exact ⟨hfailure, rfl⟩
    · cases hexit

/-- After a run that ends well, the file that has the name of an input holds the result of the last
input whose name reads alike, which is the input itself if no other name does. -/
theorem read_output {tree : FileTree} {stdin : Except Fault Text} {home : Option Text}
    {arguments : List Bytes} {o : Options} {directory path : Path}
    (ho : Options.parse arguments = .run o) (hout : o.output = some directory)
    (hexit : (ofArguments tree stdin home arguments).exit = 0) (hpath : path ∈ o.files) :
    ∃ name last text, path.fileName? = some name ∧
      (o.files.filter fun other =>
        (Path.fileName? other).map Path.display == some name.display).getLast? = some last ∧
      Surroundings.IsResult ⟨tree.read, stdin, home⟩ o last text ∧
      (ofArguments tree stdin home arguments).tree.read
        (directory.join (Text.bytes (name.display ++ ".html".toList))) = .ok text ∧
      ((∀ other ∈ o.files, (Path.fileName? other).map Path.display = some name.display →
        other = path) → last = path) := by
  rw [ofArguments_of_run ho] at hexit ⊢
  obtain ⟨rulesPath, contents, hrules, hload, hobstacles, hfailure, htree⟩ :=
    of_exit_eq_zero hout hexit
  have hsources : o.sources = o.files.map .file := by
    rw [Options.sources, if_neg (List.ne_nil_of_mem hpath)]
  have hread : ∀ other ∈ o.files, ∃ content, tree.read other = .ok content := by
    intro other hother
    have hsource : InputSource.file other ∈ o.sources := hsources ▸ List.mem_map_of_mem hother
    exact Surroundings.exists_fetch_of_obstacles_eq_nil hobstacles hsource
  -- all inputs have been read, so none of them goes by its whole path
  have hinputName : ∀ other ∈ o.files,
      other.fileName?.map Path.display = some other.inputName := by
    intro other hother
    obtain ⟨content, hcontent⟩ := hread other hother
    exact FileTree.map_display_fileName?_of_read hcontent
  obtain ⟨name, hname, hdisplay⟩ := Option.map_eq_some_iff.1 (hinputName path hpath)
  have hfilter : (o.files.filter fun other =>
      (Path.fileName? other).map Path.display == some name.display) =
      o.files.filter fun other => other.inputName == path.inputName := by
    refine List.filter_congr fun other hother => ?_
    rw [hinputName other hother, hdisplay]
    rfl
  have hnamed : path ∈ o.files.filter fun other => other.inputName == path.inputName :=
    List.mem_filter.2 ⟨hpath, beq_self_eq_true _⟩
  obtain ⟨last, hlast⟩ := Option.ne_none_iff_exists'.1
    (mt List.getLast?_eq_none_iff.1 (List.ne_nil_of_mem hnamed))
  obtain ⟨hmem, hlastName⟩ := List.mem_filter.1 (List.mem_of_getLast? hlast)
  obtain ⟨content, hcontent⟩ := hread last hmem
  refine ⟨name, last, _, hname, hfilter ▸ hlast,
    Surroundings.isResult_text_resultOf hcontent hrules hload, ?_, fun hall => hall last hmem ?_⟩
  · rw [htree, hdisplay]
    refine read_deliver hfailure ?_ ?_
    · intro r hr
      obtain ⟨source, hsource, rfl⟩ := List.mem_map.1 hr
      obtain ⟨content, hcontent⟩ :=
        Surroundings.exists_fetch_of_obstacles_eq_nil hobstacles hsource
      exact InputSource.notMem_name hcontent
    · -- a result has the name of its input, so the last results of a name come of the last inputs
      rw [hsources, List.map_map, List.filter_map, List.getLast?_map]
      exact congrArg (Option.map _) hlast
  · rw [hinputName last hmem, hdisplay, beq_iff_eq.1 hlastName]

/-- A tree with a rule file, two inputs that have one name, and two whose names are not UTF-8. -/
def namesakes : FileTree :=
  let w : Path := .ofString "w"
  (((((((FileTree.empty [w]).put [w, .ofString "r"] (.text RuleFile.header)).put
    [w, .ofString "a", .ofString "x"] (.text ['1'])).put
    [w, .ofString "b", .ofString "x"] (.text ['2'])).put
    [w, [0xFF]] (.text ['3'])).put [w, [0xFE]] (.text ['4'])).put
    [w, .ofString "out"] .directory)

/-- The arguments that name all of them as inputs. -/
def namesakeArguments : List Bytes :=
  ["-r", "r", "-o", "out", "a/x", "b/x"].map Bytes.ofString ++ [[0xFF], [0xFE]]

set_option maxRecDepth 4096 in
/-- Of two inputs of one name the second leaves its result, and so does the second of two inputs whose
names are different bytes and both read as a replacement character. -/
theorem read_output_namesakes :
    let after := (ofArguments namesakes (.ok []) none namesakeArguments).tree
    after.read (.ofString "out/x.html") = .ok ['2', '\n'] ∧
      after.read (.ofString "out/\uFFFD.html") = .ok ['4', '\n'] := by
  intro after
  let o : Options :=
    { rules := Bytes.ofString "r", output := Bytes.ofString "out",
      files := ["a/x", "b/x"].map Bytes.ofString ++ [[0xFF], [0xFE]] }
  have hparse : Options.parse namesakeArguments = .run o := rfl
  have hexit : (ofArguments namesakes (.ok []) none namesakeArguments).exit = 0 := rfl
  let s : Surroundings := ⟨namesakes.read, .ok [], none⟩
  let rules : RuleSet := .ofDirectives []
  have hload : RuleFile.load (namesakes.read (.ofString "r")) = .ok ⟨rules, []⟩ := rfl
  have hkept : ∀ path ∈ o.files, ∀ name last content, path.fileName? = some name →
      (o.files.filter fun other =>
        (Path.fileName? other).map Path.display == some name.display).getLast? = some last →
      namesakes.read last = .ok content →
      after.read (Path.join (.ofString "out") (Text.bytes (name.display ++ ".html".toList))) =
        .ok ((s.settled o).wrapped (rules.render ((s.settled o).prepare content)) ++ ['\n']) := by
    intro path hpath name last content hname hlast hcontent
    obtain ⟨name', last', text, hname', hlast', hresult, hread, -⟩ :=
      read_output hparse rfl hexit hpath
    cases hname.symm.trans hname'
    cases hlast.symm.trans hlast'
    obtain ⟨content', rulesPath, contents, hcontent', hrules, hcontents, rfl⟩ := hresult
    cases hcontent.symm.trans hcontent'
    cases hrules
    cases hload.symm.trans hcontents
    exact hread
  exact ⟨hkept (.ofString "a/x") List.mem_cons_self _ _ _ rfl rfl rfl,
    hkept [0xFF] (by decide) _ _ _ rfl rfl rfl⟩

set_option maxRecDepth 4096 in
/-- The first of them does not find its own result, though the run ends well. -/
theorem result_not_kept :
    let arguments := ["-r", "r", "-o", "out", "a/x", "b/x"].map Bytes.ofString
    let o : Options :=
      { rules := Bytes.ofString "r", output := Bytes.ofString "out",
        files := ["a/x", "b/x"].map Bytes.ofString }
    let s : Surroundings := ⟨namesakes.read, .ok [], none⟩
    Options.parse arguments = .run o ∧
      (ofArguments namesakes (.ok []) none arguments).exit = 0 ∧
      ¬ ∀ path ∈ o.files, ∀ name, path.fileName? = some name → ∀ text, s.IsResult o path text →
        (ofArguments namesakes (.ok []) none arguments).tree.read
          (Path.join (.ofString "out") (name ++ .ofString ".html")) = .ok text := by
  intro arguments o s
  have hparse : Options.parse arguments = .run o := rfl
  have hexit : (ofArguments namesakes (.ok []) none arguments).exit = 0 := rfl
  refine ⟨hparse, hexit, fun hall => ?_⟩
  have hresult : s.IsResult o (.ofString "a/x") ['1', '\n'] :=
    ⟨['1'], .ofString "r", ⟨.ofDirectives [], []⟩, rfl, rfl, rfl, rfl⟩
  have hheld : (ofArguments namesakes (.ok []) none arguments).tree.read
      (Path.join (.ofString "out") (.ofString "x" ++ .ofString ".html")) = .ok ['2', '\n'] := rfl
  have hkept := hall (.ofString "a/x") List.mem_cons_self (.ofString "x") rfl ['1', '\n'] hresult
  cases hheld.symm.trans hkept

end Execution

end Tint
