/-
  SceneScript.Proofs.CommandRuns — a command does all of its work or none.

  A run reads first and writes once, as its last step, so a run that fails has printed and
  written nothing. This is followed through the parts of a command: each hands on what it
  has read, or the run ends there with an error (`Program.Refuses`).

  Proved, for every argument list and every directory (`commands_are_all_or_nothing`):
  - a run ends with code 0 or 1, and with 1 the directory is as before and nothing is printed;
  - only `generate` ever changes the directory;
  - when it succeeds, the output holds the script that the scene, the configuration and
    the earlier text give, and nothing stands differently at any other place;
  - where there was no output, that is what `print` shows for the same scene and
    configuration.
-/
import SceneScript.Command.Program
import SceneScript.Proofs.DirectoryWrites
import SceneScript.Proofs.FileHistory

namespace SceneScript

/-! ## What a directory holds -/

namespace Directory

/-- The file of this path is a scene. -/
def HoldsScene (d : Directory) (path : String) (m : Model) : Prop :=
  ∃ text, d.read path = .ok text ∧ Model.codec.ofText text = .ok m

/-- The configuration that counts: the file's, or the defaults. -/
def config (d : Directory) (home : String) : Config :=
  (Config.load (d.read (Program.configPath home)).toOption).config

/-- The path is that of an earlier text, or of no file yet. -/
inductive Precedes (d : Directory) (path : String) : Option String → Prop
  | absent : d.read path = .error .notFound → Precedes d path none
  | text {old : String} : d.read path = .ok old → Precedes d path (some old)

theorem HoldsScene.of_read_eq {d d₂ : Directory} {path path₂ : String} {m : Model} (h : d.HoldsScene path m)
    (hread : d₂.read path₂ = d.read path) : d₂.HoldsScene path₂ m := by
  obtain ⟨text, htext, hm⟩ := h
  exact ⟨text, hread.trans htext, hm⟩

theorem Precedes.of_absent {d : Directory} {path : String} {previous : Option String} (h : d.Precedes path previous)
    (habsent : d.read path = .error .notFound) : previous = none := by
  cases h with
  | absent => rfl
  | text hold =>
    rw [habsent] at hold
    cases hold

/-- The output holds the text, and no other place has changed. -/
structure Leaves (d : Directory) (output text : String) (d' : Directory) : Prop where
  read : d'.read output = .ok text
  elsewhere : ∃ place, d.resolve output = .ok place ∧ ∀ other, other ≠ place → d'.entry other = d.entry other

theorem leaves_of_read {d : Directory} {output text : String} (h : d.read output = .ok text) :
    d.Leaves output text d := by
  refine ⟨h, ?_⟩
  cases hplace : d.resolve output with
  | error e =>
    rw [Directory.read, hplace] at h
    cases h
  | ok place => exact ⟨place, rfl, fun _ _ => rfl⟩

theorem leaves_of_write {d d' : Directory} {output text : String} (h : d.write output text = .ok d') :
    d.Leaves output text d' := by
  refine ⟨read_write h, ?_⟩
  obtain ⟨place, hplace, -, rfl⟩ := write_ok h
  exact ⟨place, hplace, fun other hne => entry_put_of_ne (parents_there hplace) hne⟩

/-- The directory after a script has been kept: as it is if the script is there already, else with the script written. -/
inductive Stores (d : Directory) (output : String) (previous : Option String) (text : String) : Directory → Prop
  | same : previous = some text → Stores d output previous text d
  | written {d' : Directory} : previous ≠ some text → d.write output text = .ok d' → Stores d output previous text d'

theorem Stores.leaves {d d' : Directory} {output text : String} {previous : Option String}
    (h : d.Stores output previous text d') (hprevious : d.Precedes output previous) : d.Leaves output text d' := by
  cases h with
  | same heq =>
    subst heq
    cases hprevious with
    | text hread => exact leaves_of_read hread
  | written _ hwrite => exact leaves_of_write hwrite

end Directory

namespace Program

/-! ## The parts of a command -/

/-- The run ends with an error, and nothing has happened. -/
structure Refuses (p : Program) (d : Directory) : Prop where
  code : (p.run d).1.code = 1
  out : (p.run d).1.out = ""
  kept : (p.run d).2 = d

theorem fail_refuses (message : String) (d : Directory) : (fail message).Refuses d := ⟨rfl, rfl, rfl⟩

theorem Refuses.of_run_eq {p q : Program} {d : Directory} (h : q.Refuses d) (heq : p.run d = q.run d) : p.Refuses d := by
  constructor
  · rw [heq, h.code]
  · rw [heq, h.out]
  · rw [heq, h.kept]

section Parts

variable (d : Directory) (path home : String)

theorem run_read (next : Except FileError String → Program) : (read path next).run d = (next (d.read path)).run d := rfl

/-- A scene is handed on. -/
theorem run_withModel {m : Model} (h : d.HoldsScene path m) (next : Model → Program) :
    (withModel path next).run d = (next m).run d := by
  obtain ⟨text, hread, hscene⟩ := h
  rw [withModel, run_read, hread]
  simp only [hscene]

/-- Without one the run ends. -/
theorem withModel_refuses (h : ∀ m, ¬ d.HoldsScene path m) (next : Model → Program) :
    (withModel path next).Refuses d := by
  cases hread : d.read path with
  | error e =>
    refine (fail_refuses ("Failed to read " ++ path ++ ": " ++ e.message) d).of_run_eq ?_
    rw [withModel, run_read, hread]
  | ok text =>
    cases hscene : Model.codec.ofText text with
    | error e =>
      refine (fail_refuses
        ("Failed to parse " ++ path ++ ": Invalid scene model: " ++ readErrorMessage e) d).of_run_eq ?_
      rw [withModel, run_read, hread]
      simp only [hscene]
    | ok m => exact absurd ⟨text, hread, hscene⟩ (h m)

/-- There is always a configuration. -/
theorem run_withConfig (next : Config → Program) : (withConfig home next).run d = (next (d.config home)).run d := by
  rw [withConfig, run_read, Directory.config]
  cases d.read (configPath home) with
  | error e => rfl
  | ok text => rfl

/-- The earlier text is handed on, or that there is none. -/
theorem run_withPrevious {previous : Option String} (h : d.Precedes path previous) (next : Option String → Program) :
    (withPrevious path next).run d = (next previous).run d := by
  cases h with
  | absent hread => rw [withPrevious, run_read, hread]
  | text hread => rw [withPrevious, run_read, hread]

/-- Where neither can be said the run ends. -/
theorem withPrevious_refuses (h : ∀ previous, ¬ d.Precedes path previous) (next : Option String → Program) :
    (withPrevious path next).Refuses d := by
  cases hread : d.read path with
  | ok text => exact absurd (.text hread) (h (some text))
  | error e =>
    refine (fail_refuses ("Failed to read " ++ path ++ ": " ++ e.message) d).of_run_eq ?_
    rw [withPrevious, run_read, hread]
    cases e with
    | notFound => exact absurd (.absent hread) (h none)
    | _ => rfl

theorem keepScript_of_ne {previous : Option String} {text : String} (h : previous ≠ some text) (next : Program) :
    keepScript (Outcome.compare previous text) path text next = write path text fun
      | .error e => fail ("Failed to write " ++ path ++ ": " ++ e.message)
      | .ok () => next := by
  have hchanged : Outcome.compare previous text ≠ .unchanged := fun heq => h (Outcome.compare_eq_unchanged_iff.mp heq)
  cases houtcome : Outcome.compare previous text with
  | unchanged => exact absurd houtcome hchanged
  | _ => rfl

/-- The script is kept. -/
theorem run_keepScript {previous : Option String} {text : String} {d' : Directory} (h : d.Stores path previous text d')
    (next : Program) : (keepScript (Outcome.compare previous text) path text next).run d = next.run d' := by
  cases h with
  | same heq =>
    rw [Outcome.compare_eq_unchanged_iff.mpr heq]
    rfl
  | written hne hwrite => simp only [keepScript_of_ne path hne, run, hwrite]

/-- A script that cannot be kept ends the run. -/
theorem keepScript_refuses {previous : Option String} {text : String} (h : ∀ d', ¬ d.Stores path previous text d')
    (next : Program) : (keepScript (Outcome.compare previous text) path text next).Refuses d := by
  have hne : previous ≠ some text := fun heq => h d (.same heq)
  cases hresult : d.write path text with
  | ok d' => exact absurd (.written hne hresult) (h d')
  | error e =>
    refine (fail_refuses ("Failed to write " ++ path ++ ": " ++ e.message) d).of_run_eq ?_
    simp only [keepScript_of_ne path hne, run, hresult]

end Parts

/-! ## Commands -/

/-- A run of `generate` reads the scene and the earlier text, and keeps the script made from them. -/
theorem run_generate {scene output : String} {d d' : Directory} {m : Model} {previous : Option String} (home : String)
    (hm : d.HoldsScene scene m) (hprevious : d.Precedes output previous)
    (hstore : d.Stores output previous (SceneScript.generate (d.config home) m previous) d') :
    ((generate home scene output).run d).1.code = 0 ∧ ((generate home scene output).run d).2 = d' := by
  rw [generate, run_withModel d scene hm, run_withConfig, run_withPrevious d output hprevious,
    run_keepScript d output hstore]
  exact ⟨rfl, rfl⟩

/-- Where one of these fails the run ends. -/
theorem generate_refuses {home scene output : String} {d : Directory}
    (h : ∀ m previous d', d.HoldsScene scene m → d.Precedes output previous →
      ¬ d.Stores output previous (SceneScript.generate (d.config home) m previous) d') :
    (generate home scene output).Refuses d := by
  by_cases hscene : ∃ m, d.HoldsScene scene m
  · obtain ⟨m, hm⟩ := hscene
    have hmodel := run_withModel d scene hm
    by_cases hearlier : ∃ previous, d.Precedes output previous
    · obtain ⟨previous, hprevious⟩ := hearlier
      have hkeep := keepScript_refuses d output (fun d' => h m previous d' hm hprevious)
      exact (hkeep _).of_run_eq ((hmodel _).trans ((run_withConfig d home _).trans (run_withPrevious d output hprevious _)))
    · have hread := withPrevious_refuses d output (not_exists.mp hearlier)
      exact (hread _).of_run_eq ((hmodel _).trans (run_withConfig d home _))
  · exact withModel_refuses d scene (not_exists.mp hscene) _

/-- A run of `print` prints the script without an earlier one. -/
theorem run_print {scene : String} {d : Directory} {m : Model} (home : String) (h : d.HoldsScene scene m) :
    (print home scene).run d = (⟨0, SceneScript.generate (d.config home) m none, ""⟩, d) := by
  rw [print, run_withModel d scene h, run_withConfig]
  rfl

/-- A run of `regions` ends with an error, or ends well and writes nothing. -/
theorem run_regions (home path : String) (d : Directory) :
    (regions home path).Refuses d ∨
      ((regions home path).run d).1.code = 0 ∧ ((regions home path).run d).2 = d := by
  cases hread : d.read path with
  | error e =>
    refine .inl ((fail_refuses ("Failed to read " ++ path ++ ": " ++ e.message) d).of_run_eq ?_)
    rw [regions, run_read, hread]
  | ok text =>
    rw [regions, run_read, hread]
    simp only [run_withConfig]
    exact .inr ⟨rfl, rfl⟩

/-- Any command either ends with an error or ends well, and then only `generate` has written. -/
theorem run_ofArguments (home : String) (args : List String) (d : Directory) :
    (ofArguments home args).Refuses d ∨
      ((ofArguments home args).run d).1.code = 0 ∧
        (args.head? ≠ some "generate" → ((ofArguments home args).run d).2 = d) := by
  unfold ofArguments
  split
  · rename_i scene output _
    by_cases h : ∃ m previous d', d.HoldsScene scene m ∧ d.Precedes output previous ∧
        d.Stores output previous (SceneScript.generate (d.config home) m previous) d'
    · obtain ⟨m, previous, d', hm, hprevious, hstore⟩ := h
      exact .inr ⟨(run_generate home hm hprevious hstore).1, fun hother => absurd rfl hother⟩
    · exact .inl (generate_refuses fun m previous d' hm hprevious hstore =>
        h ⟨m, previous, d', hm, hprevious, hstore⟩)
  · exact .inl (fail_refuses _ d)
  · rename_i scene _
    by_cases hscene : ∃ m, d.HoldsScene scene m
    · obtain ⟨m, hm⟩ := hscene
      rw [run_print home hm]
      exact .inr ⟨rfl, fun _ => rfl⟩
    · exact .inl (withModel_refuses d scene (not_exists.mp hscene) _)
  · exact .inl (fail_refuses _ d)
  · rename_i path _
    rcases run_regions home path d with hrefused | ⟨hcode, hkept⟩
    · exact .inl hrefused
    · exact .inr ⟨hcode, fun _ => hkept⟩
  · exact .inl (fail_refuses _ d)
  · exact .inl (fail_refuses _ d)

end Program

/-! ## All or nothing -/

/-- A run that fails leaves every file as it was and prints nothing, and `print` and `regions` never change a file. A run of
    `generate` succeeds if there are a scene and an earlier text or none, and the script made from them can be kept. It
    leaves that script in the output and changes no other place; where there was no earlier text, `print` shows the same
    script for the same scene and configuration. -/
theorem commands_are_all_or_nothing {home : String} {args : List String} {d d' : Directory} {report : Report}
    (h : (Program.ofArguments home args).run d = (report, d')) :
    (report.code = 0 ∨ report.code = 1) ∧
      (report.code = 1 → d' = d ∧ report.out = "") ∧
      (args.head? ≠ some "generate" → d' = d) ∧
      ∀ scene output more, args = "generate" :: scene :: output :: more →
        (report.code = 0 ↔ ∃ m previous d'', d.HoldsScene scene m ∧ d.Precedes output previous ∧
          d.Stores output previous (generate (d.config home) m previous) d'') ∧
        (report.code = 0 → ∃ m previous, d.HoldsScene scene m ∧ d.Precedes output previous ∧
          d.Leaves output (generate (d.config home) m previous) d' ∧
          (d.read output = .error .notFound →
            ∀ home₂ scene₂ more₂ d₂ report₂ d₂',
              (Program.ofArguments home₂ ("print" :: scene₂ :: more₂)).run d₂ = (report₂, d₂') →
              d₂.read scene₂ = d.read scene →
              d₂.read (Program.configPath home₂) = d.read (Program.configPath home) →
              report₂.code = 0 ∧ d'.read output = .ok report₂.out)) := by
  obtain rfl : ((Program.ofArguments home args).run d).1 = report := congrArg Prod.fst h
  obtain rfl : ((Program.ofArguments home args).run d).2 = d' := congrArg Prod.snd h
  refine ⟨?_, ?_, ?_, ?_⟩
  · rcases Program.run_ofArguments home args d with hrefused | ⟨hcode, -⟩
    · exact .inr hrefused.code
    · exact .inl hcode
  · intro hfailed
    rcases Program.run_ofArguments home args d with hrefused | ⟨hcode, -⟩
    · exact ⟨hrefused.kept, hrefused.out⟩
    · rw [hcode] at hfailed
      cases hfailed
  · intro hother
    rcases Program.run_ofArguments home args d with hrefused | ⟨-, hkept⟩
    · exact hrefused.kept
    · exact hkept hother
  · rintro scene output more rfl
    have hrun : Program.ofArguments home ("generate" :: scene :: output :: more)
        = Program.generate home scene output := rfl
    rw [hrun]
    by_cases h : ∃ m previous d'', d.HoldsScene scene m ∧ d.Precedes output previous ∧
        d.Stores output previous (generate (d.config home) m previous) d''
    · refine ⟨iff_of_true ?_ h, fun _ => ?_⟩
      · obtain ⟨m, previous, d'', hm, hprevious, hstore⟩ := h
        exact (Program.run_generate home hm hprevious hstore).1
      · obtain ⟨m, previous, d'', hm, hprevious, hstore⟩ := h
        obtain ⟨-, rfl⟩ := Program.run_generate home hm hprevious hstore
        refine ⟨m, previous, hm, hprevious, hstore.leaves hprevious, ?_⟩
        intro habsent home₂ scene₂ more₂ d₂ report₂ d₂' hprint hscene hconfig
        replace hprint : (Program.print home₂ scene₂).run d₂ = (report₂, d₂') := hprint
        have hsame : d₂.config home₂ = d.config home := by rw [Directory.config, Directory.config, hconfig]
        obtain rfl := hprevious.of_absent habsent
        rw [Program.run_print home₂ (hm.of_read_eq hscene), hsame] at hprint
        obtain ⟨rfl, -⟩ := Prod.mk.inj hprint
        exact ⟨rfl, (hstore.leaves hprevious).read⟩
    · have hrefused : (Program.generate home scene output).Refuses d :=
        Program.generate_refuses fun m previous d'' hm hprevious hstore => h ⟨m, previous, d'', hm, hprevious, hstore⟩
      have hcode : ((Program.generate home scene output).run d).1.code ≠ 0 := by
        rw [hrefused.code]
        decide
      exact ⟨iff_of_false hcode h, fun hzero => absurd hzero hcode⟩

/-- A directory with a scene, a configuration in the home directory, and bytes that are no text. -/
def caveDirectory : Directory where
  files := [
    (["cave.json"], .text "\x7b\"settings\": \x7b\"class_name\": \"Cave\"\x7d\x7d"),
    ([".config", "canvas-codegen", "codegen.json"], .text "\x7b\"indent\": \" \"\x7d"),
    (["cave.png"], .bytes [0xff] (by decide))]

/-- The first script of a scene is what is printed for it. -/
theorem caveDirectory_gets_printed_script :
    ∃ made printed, (Program.ofArguments "." ["generate", "cave.json", "./cave.js"]).run caveDirectory = made ∧
      (Program.ofArguments "." ["print", "cave.json"]).run caveDirectory = printed ∧ made.1.code = 0 ∧
      caveDirectory.read "./cave.js" = .error .notFound ∧ printed.1.code = 0 ∧
      made.2.read "./cave.js" = .ok printed.1.out := by
  have hcode : ((Program.ofArguments "." ["generate", "cave.json", "./cave.js"]).run caveDirectory).1.code = 0 := by
    decide +kernel
  have habsent : caveDirectory.read "./cave.js" = .error .notFound := by decide +kernel
  obtain ⟨-, -, -, hmade⟩ := commands_are_all_or_nothing (Prod.eta _).symm
  obtain ⟨m, previous, -, -, -, hprint⟩ := (hmade "cave.json" "./cave.js" [] rfl).2 hcode
  obtain ⟨hprinted, hsame⟩ := hprint habsent "." "cave.json" [] caveDirectory _ _ (Prod.eta _).symm rfl rfl
  exact ⟨_, _, rfl, rfl, hcode, habsent, hprinted, hsame⟩

end SceneScript
