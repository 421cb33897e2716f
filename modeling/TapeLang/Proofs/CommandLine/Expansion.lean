import TapeLang.Proofs.CommandLine.Commands
import TapeLang.Proofs.FinalNewline

/-! Files that hold the expansion of a shorthand source. Such a file has a newline after the program,
and is a plain program by its name, so it takes another way through `run` and `check` than the source.
Both ways lead to the same end. -/
namespace TapeLang.CommandLine
set_option autoImplicit false

theorem checkSource_newline (file file' : String) (source : String) (radius : Nat) :
    let a := checkSource file .shorthand radius source
    let b := checkSource file' .plain radius (expand source ++ "\n")
    a.exit = b.exit ∧ a.errors = b.errors := by
  simp only [checkSource, Dialect.program, Program.ofString_newline, Program.check_withNewline]
  obtain fault | _ := (Program.ofString (expand source)).check radius
  · exact ⟨rfl, rfl⟩
  · exact ⟨rfl, rfl⟩

/-- Expanding a source into a file and running or checking that file is the same as running or
checking the source. The two runs end alike, with the same exit code and the same bytes on both
streams, or neither ends. The two checks have the same exit code and the same errors. -/
theorem expansion_performs_as_source {read : String → Except FileError ByteArray}
    {file target source : String} {radius fuel : Nat} {stdin : List UInt8} {expanded : Outcome}
    (hfile : NamesFile file) (hsource : read file = .ok source.toUTF8)
    (hexpand : performWithin fuel read stdin ["transpile", file] = some expanded)
    (htarget : NamesFile target) (hplain : (fileName? target).bind extension? = some "bf")
    (hread : read target = .ok expanded.output) (hradius : radius < UInt64.size) :
    expanded.output = (expand source ++ "\n").toUTF8 ∧
    (∀ input outcome,
      Ends read input
          ["run", file, "--dialect", "brainlove", "--snippet-radius", radius.repr] outcome ↔
        Ends read input ["run", target, "--snippet-radius", radius.repr] outcome) ∧
    ∀ input fuel, ∃ a b,
      performWithin fuel read input
          ["check", file, "--dialect", "brainlove", "--snippet-radius", radius.repr] = some a ∧
        performWithin fuel read input ["check", target, "--snippet-radius", radius.repr] = some b ∧
        a.exit = b.exit ∧ a.errors = b.errors := by
  have hoptions : Options.parse? {}
      [file, "--dialect", "brainlove", "--snippet-radius", radius.repr] =
        some ⟨some file, some .shorthand, some radius⟩ := by
    rw [Options.parse?_file hfile rfl, Options.parse?_dialect rfl, Options.parse?_radius hradius rfl]
    rfl
  have hoptions' : Options.parse? {} [target, "--snippet-radius", radius.repr] =
      some ⟨some target, none, some radius⟩ := by
    rw [Options.parse?_file htarget rfl, Options.parse?_radius hradius rfl]
    rfl
  have hdialect : Options.dialectOf ⟨some target, none, some radius⟩ target = .plain := by
    simp [Options.dialectOf, Dialect.ofPath, hplain]
  have houtput : expanded.output = (expand source ++ "\n").toUTF8 := by
    have hcommand : Command.parse? ["transpile", file] = some (.expand file) := by
      have hoptions : Options.parse? {} [file] = some ⟨some file, none, none⟩ :=
        Options.parse?_file hfile rfl []
      simp [Command.parse?, hoptions]
    rw [performWithin_expand hcommand hsource] at hexpand
    cases hexpand
    rfl
  rw [houtput] at hread
  refine ⟨houtput, fun input outcome => ?_, fun input fuel => ?_⟩
  · have hrun := Command.parse?_run hoptions rfl
    have hrun' := Command.parse?_run hoptions' rfl
    rw [hdialect] at hrun'
    rw [ends_run_iff hrun hsource, ends_run_iff hrun' hread]
    simp only [Options.dialectOf, Option.getD_some, Dialect.program, Machine.executes_newline]
    rfl
  · have hcheck := Command.parse?_check hoptions rfl
    have hcheck' := Command.parse?_check hoptions' rfl
    rw [hdialect] at hcheck'
    exact ⟨_, _, performWithin_check hcheck hsource fuel input,
      performWithin_check hcheck' hread fuel input, checkSource_newline file target source radius⟩

theorem expansion_performs_as_source_of_stray_bracket :
    let read : String → Except FileError ByteArray := fun name =>
      .ok (if name = "s.love" then "+3.]" else "+++.]\n").toUTF8
    NamesFile "s.love" ∧ NamesFile "s.bf" ∧
      performWithin 0 read [] ["transpile", "s.love"] = some (Outcome.ofText "+++.]\n") ∧
      ∃ outcome, Ends read [] ["run", "s.bf", "--snippet-radius", "2"] outcome ∧
        outcome.exit = 1 ∧ outcome.output = [3].toByteArray ∧
        outcome.errors =
          "Error: Closing bracket has no corresponding opening bracket (line: 1, column: 5)\n" ++
            "+.]  \n  ^\n" := by
  intro read
  have hfile : NamesFile "s.love" := ⟨by decide, by decide +kernel⟩
  have htarget : NamesFile "s.bf" := ⟨by decide, by decide +kernel⟩
  have hplain : (fileName? "s.bf").bind extension? = some "bf" := by
    have hparts : pathParts "s.bf" = ["s.bf"] := by
      -- none of the four characters is a slash
      rw [pathParts, String.splitOn, if_neg (by decide)]
      iterate 4 rw [String.splitOnAux, if_neg (by decide), if_neg (by decide)]
      rw [String.splitOnAux, if_pos (by decide)]
      decide +kernel
    rw [fileName?, hparts]
    decide +kernel
  have hsource : read "s.love" = .ok "+3.]".toUTF8 := rfl
  have hexpand : performWithin 0 read [] ["transpile", "s.love"] =
      some (Outcome.ofText "+++.]\n") := by
    have hcommand : Command.parse? ["transpile", "s.love"] = some (.expand "s.love") := by
      decide +kernel
    have htext : TapeLang.expand "+3.]" ++ "\n" = "+++.]\n" := by decide +kernel
    rw [performWithin_expand hcommand hsource, htext]
  have hread : read "s.bf" = .ok "+++.]\n".toUTF8 := rfl
  obtain ⟨-, hruns, -⟩ := expansion_performs_as_source hfile hsource hexpand htarget hplain hread
    (by decide : 2 < UInt64.size)
  have hrun : (performWithin 9 read [] ["run", "s.love", "--dialect", "brainlove",
      "--snippet-radius", "2"]).map (fun o => (o.exit, o.output, o.errors)) =
        some (1, [3].toByteArray,
          "Error: Closing bracket has no corresponding opening bracket (line: 1, column: 5)\n" ++
            "+.]  \n  ^\n") := by decide +kernel
  obtain ⟨outcome, ho, hfields⟩ := Option.map_eq_some_iff.mp hrun
  obtain ⟨hexit, hfields⟩ := Prod.mk.inj hfields
  obtain ⟨houtput, herrors⟩ := Prod.mk.inj hfields
  exact ⟨hfile, htarget, hexpand, outcome, (hruns [] outcome).mp ⟨9, ho⟩, hexit, houtput, herrors⟩

end TapeLang.CommandLine
