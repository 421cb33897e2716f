import TapeLang.CommandLine.Command
import TapeLang.Proofs.Console.Lines
import TapeLang.Proofs.Line.Numerals
import TapeLang.Proofs.Machine.Walk

/-! Commands that read a text file. First come command lines: an argument that names a file and an
option with its value are each taken off the front, whatever follows. Then come equations that say
what `run`, `check` and the expansion of a file are once the command line is understood and the file
is read. -/
namespace TapeLang.CommandLine
set_option autoImplicit false

/-! ## Command lines -/

/-- An argument that is taken for a file: it is not empty and has not the form of an option. -/
structure NamesFile (argument : String) : Prop where
  not_empty : argument ≠ ""
  not_option : isOption argument = false

theorem NamesFile.ne_dashes {file : String} (h : NamesFile file) : file ≠ "--" := by
  rintro rfl
  have hoption : isOption "--" = true := by decide +kernel
  rw [h.not_option] at hoption
  cases hoption

theorem isOption_repr (n : Nat) : isOption n.repr = false := by
  obtain ⟨c, digits, hrepr, hdigit, -⟩ := Numeral.exists_digits_of_repr n
  have hc : c ≠ '-' := by
    rintro rfl
    cases hdigit '-' List.mem_cons_self
  unfold isOption
  rw [hrepr]
  split <;> simp_all

theorem wordValue?_repr {n : Nat} (h : n < UInt64.size) : wordValue? n.repr = some n := by
  obtain ⟨c, digits, hrepr, hdigit, hvalue⟩ := Numeral.exists_digits_of_repr n
  have hc : c ≠ '+' := by
    rintro rfl
    cases hdigit '+' List.mem_cons_self
  have hall : (c :: digits).all Char.isDigit = true := List.all_eq_true.mpr hdigit
  rw [wordValue?, hrepr]
  split
  · rename_i hplus
    cases hplus
    exact absurd rfl hc
  · rw [hall, hvalue]
    simp [h]

namespace Options

theorem parse?_file {o : Options} {file : String} (h : NamesFile file) (ho : o.file = none)
    (rest : List String) : o.parse? (file :: rest) = parse? { o with file := some file } rest := by
  have hset : o.setFile file = some { o with file := some file } := by
    simp [setFile, ho, h.not_empty]
  cases rest with
  | nil => simp [parse?, h.ne_dashes, h.not_option, hset]
  | cons next rest => simp [parse?, h.ne_dashes, h.not_option, hset]

theorem parse?_radius {o : Options} {n : Nat} (hn : n < UInt64.size) (ho : o.radius = none)
    (rest : List String) :
    o.parse? ("--snippet-radius" :: n.repr :: rest) = parse? { o with radius := some n } rest := by
  have hset : o.setOption "--snippet-radius" n.repr = some { o with radius := some n } := by
    simp [setOption, ho, wordValue?_repr hn]
  have hsplit : splitOption "--snippet-radius" = ("--snippet-radius", none) := by decide +kernel
  have hoption : isOption "--snippet-radius" = true := by decide +kernel
  simp [parse?, hoption, hsplit, isOption_repr, hset]

theorem parse?_dialect {o : Options} (ho : o.dialect = none) (rest : List String) :
    o.parse? ("--dialect" :: "brainlove" :: rest) =
      parse? { o with dialect := some .shorthand } rest := by
  have hset : o.setOption "--dialect" "brainlove" = some { o with dialect := some .shorthand } := by
    simp [setOption, ho, Dialect.ofName?]
  have hsplit : splitOption "--dialect" = ("--dialect", none) := by decide +kernel
  have hoption : isOption "--dialect" = true := by decide +kernel
  have hvalue : isOption "brainlove" = false := by decide +kernel
  simp [parse?, hoption, hsplit, hvalue, hset]

end Options

namespace Command

variable {rest : List String} {o : Options} {file : String}

theorem parse?_run (h : Options.parse? {} rest = some o) (hf : o.file = some file) :
    parse? ("run" :: rest) = some (.run file (o.dialectOf file) o.excerptRadius) := by
  simp [parse?, h, hf]

theorem parse?_check (h : Options.parse? {} rest = some o) (hf : o.file = some file) :
    parse? ("check" :: rest) = some (.check file (o.dialectOf file) o.excerptRadius) := by
  simp [parse?, h, hf]

end Command

/-! ## Commands on a text -/

theorem sourceText_of_read {read : String → Except FileError ByteArray} {file source : String}
    (h : read file = .ok source.toUTF8) : sourceText read file = .ok source := by
  simp only [sourceText, h, Text.decode?_eq_some_iff.mpr (rfl : source.toUTF8 = source.toUTF8)]

/-- In both dialects a source is run as the program that it stands for. -/
theorem runSource_eq (fuel : Nat) (dialect : Dialect) (radius : Nat) (input : List UInt8)
    (source : String) :
    runSource fuel dialect radius input source =
      ((machine radius input).executeWithin fuel (dialect.program source)).map
        fun o => Outcome.ofResult o.1 o.2.host.output := by
  cases dialect with
  | plain =>
    simp only [runSource, Dialect.program]
    cases (machine radius input).executeWithin fuel source <;> rfl
  | shorthand =>
    simp only [runSource, Job.executeWithin, Job.expanded, Dialect.program]
    cases (machine radius input).executeWithin fuel (expand source) <;> rfl

variable {read : String → Except FileError ByteArray} {arguments : List String}
  {file source : String} {dialect : Dialect} {radius : Nat}

theorem performWithin_run (h : Command.parse? arguments = some (.run file dialect radius))
    (hf : read file = .ok source.toUTF8) (fuel : Nat) (input : List UInt8) :
    performWithin fuel read input arguments =
      ((machine radius input).executeWithin fuel (dialect.program source)).map
        fun o => Outcome.ofResult o.1 o.2.host.output := by
  simp only [performWithin, h, Command.performWithin, sourceText_of_read hf, runSource_eq]

theorem performWithin_check (h : Command.parse? arguments = some (.check file dialect radius))
    (hf : read file = .ok source.toUTF8) (fuel : Nat) (input : List UInt8) :
    performWithin fuel read input arguments = some (checkSource file dialect radius source) := by
  simp only [performWithin, h, Command.performWithin, sourceText_of_read hf]

theorem performWithin_expand (h : Command.parse? arguments = some (.expand file))
    (hf : read file = .ok source.toUTF8) (fuel : Nat) (input : List UInt8) :
    performWithin fuel read input arguments =
      some (Outcome.ofText (TapeLang.expand source ++ "\n")) := by
  simp only [performWithin, h, Command.performWithin, sourceText_of_read hf]

/-- A command line comes to an end with an outcome. -/
def Ends (read : String → Except FileError ByteArray) (input : List UInt8) (arguments : List String)
    (outcome : Outcome) : Prop :=
  ∃ fuel, performWithin fuel read input arguments = some outcome

theorem ends_run_iff (h : Command.parse? arguments = some (.run file dialect radius))
    (hf : read file = .ok source.toUTF8) (input : List UInt8) (outcome : Outcome) :
    Ends read input arguments outcome ↔
      ∃ result console,
        (∃ m, (machine radius input).Executes (dialect.program source) (result, m) ∧
          m.host = console) ∧
        outcome = Outcome.ofResult result console.output := by
  constructor
  · rintro ⟨fuel, hfuel⟩
    rw [performWithin_run h hf, Option.map_eq_some_iff] at hfuel
    obtain ⟨⟨result, m⟩, hm, rfl⟩ := hfuel
    exact ⟨result, m.host, ⟨m, ⟨fuel, hm⟩, rfl⟩, rfl⟩
  · rintro ⟨result, _, ⟨m, ⟨fuel, hm⟩, rfl⟩, rfl⟩
    refine ⟨fuel, ?_⟩
    rw [performWithin_run h hf, hm, Option.map_some]

end TapeLang.CommandLine
