import Stencil.Cli.Run
import Stencil.Proofs.Silent

/-!
# Stencil — commands carried out in a world

`Session.runIn` carries a command out, as `Work.runIn` does for work. A command line is
taken apart in three steps, one for the program, one for a group and one for the command;
when nothing is wrong with it and nothing is asked about it, what is left to do is to set
up logging and to carry the command out.

Main results:

* `Session.runIn_bind` and its like — combined sessions;
* `parse_settings` — options set only what they are there for;
* `Calls`, `runProgram_of_calls` — what a command line that calls a command does.
-/

namespace Stencil.Cli

open Stencil.Disk

namespace Session

/-! ## Combined sessions -/

section Combined

variable {α β : Type}

/-- The outcome of a session in a world, and the world after it. -/
def runIn (s : Session α) (w : World) : Except Ending α × World :=
  Script.run (ExceptT.run s) w

@[simp]
theorem runIn_pure (a : α) (w : World) : (pure a : Session α).runIn w = (.ok a, w) :=
  rfl

@[simp]
theorem runIn_throw (e : Ending) (w : World) :
    (throw e : Session α).runIn w = (.error e, w) :=
  rfl

theorem runIn_bind (s : Session α) (next : α → Session β) (w : World) :
    (s >>= next).runIn w =
      match s.runIn w with
      | (.ok a, w') => (next a).runIn w'
      | (.error e, w') => (.error e, w') := by
  show (Script.bind (ExceptT.run s) (ExceptT.bindCont next)).run w = _
  rw [Script.run_bind, runIn]
  obtain ⟨_ | _, w'⟩ := Script.run (ExceptT.run s) w <;> rfl

theorem runIn_bind_of_ok {s : Session α} {next : α → Session β} {w w' : World} {a : α}
    (h : s.runIn w = (.ok a, w')) : (s >>= next).runIn w = (next a).runIn w' := by
  rw [runIn_bind, h]

theorem runIn_bind_of_error {s : Session α} {next : α → Session β} {w w' : World} {e : Ending}
    (h : s.runIn w = (.error e, w')) : (s >>= next).runIn w = (.error e, w') := by
  rw [runIn_bind, h]

@[simp]
theorem runIn_print (text : String) (w : World) :
    (print text).runIn w = (.ok (), { w with output := w.output ++ Text.printed text }) :=
  rfl

@[simp]
theorem runIn_outcome (work : Work α) (w : World) :
    (outcome work).runIn w = (.ok (work.runIn w).1, (work.runIn w).2) := by
  show Script.run (Script.bind (ExceptT.run work) fun a => Script.done (Except.ok a)) w = _
  rw [Script.run_bind]
  rfl

theorem runIn_attempt (work : Work α) (w : World) :
    (attempt work).runIn w = ((work.runIn w).1.mapError Ending.crash, (work.runIn w).2) := by
  rw [attempt, runIn_bind, runIn_outcome]
  cases (work.runIn w).1 <;> rfl

theorem runIn_attempt_of_ok {work : Work α} {w w' : World} {a : α}
    (h : work.runIn w = (.ok a, w')) : (attempt work).runIn w = (.ok a, w') := by
  rw [runIn_attempt, h]
  rfl

theorem runIn_attempt_of_error {work : Work α} {w w' : World} {failure : Failure}
    (h : work.runIn w = (.error failure, w')) :
    (attempt work).runIn w = (.error (.crash failure), w') := by
  rw [runIn_attempt, h]
  rfl

/-- How a run ends; one that comes to its end does so with status 0. -/
def endOf : Except Ending Unit → Ending
  | .ok () => .exit 0
  | .error e => e

/-- How a session ends in a world, if it is the whole run. -/
def ended (s : Session Unit) (w : World) : Ending × World :=
  (endOf (s.runIn w).1, (s.runIn w).2)

theorem run_ending (s : Session Unit) (w : World) : (ending s).run w = s.ended w := by
  show (Script.bind (ExceptT.run s) _).run w = _
  rw [Script.run_bind, ended, runIn]
  obtain ⟨_ | _, w'⟩ := Script.run (ExceptT.run s) w <;> rfl

end Combined

end Session

/-! ## Options -/

section Options

variable {spellings : List Spelling} {p : Parsed}

theorem spelled?_eq_some {word : String} {s : Spelling} (h : spelled? spellings word = some s) :
    s ∈ spellings :=
  List.mem_of_find?_eq_some h

theorem readLetters_settings {nextWord? : Option String} {letters : List Char}
    {options : List Occurrence} {tookNext : Bool}
    (h : readLetters spellings nextWord? letters = .ok (options, tookNext)) :
    ∀ o ∈ options, ∃ s ∈ spellings, o.setting = s.setting := by
  induction letters generalizing options tookNext with
  | nil =>
    obtain ⟨rfl, -⟩ := Prod.mk.inj (Except.ok.inj h)
    simp
  | cons c rest ih =>
    rw [readLetters] at h
    split at h
    · simp at h
    · rename_i s hs
      have hmem := spelled?_eq_some hs
      split at h
      · cases hrest : readLetters spellings nextWord? rest with
        | error fault => simp [hrest, Except.map] at h
        | ok found =>
          obtain ⟨more, took⟩ := found
          rw [hrest] at h
          obtain ⟨rfl, -⟩ := Prod.mk.inj (Except.ok.inj h)
          intro o ho
          rcases List.mem_cons.mp ho with rfl | ho
          · exact ⟨s, hmem, rfl⟩
          · exact ih hrest o ho
      · -- the value is the rest of the word or the next one
        split at h
        all_goals first
          | (obtain ⟨rfl, -⟩ := Prod.mk.inj (Except.ok.inj h)
             intro o ho
             exact ⟨s, hmem, by rw [List.mem_singleton.mp ho]⟩)
          | simp at h

theorem readOption_settings {word : String} {nextWord? : Option String}
    {options : List Occurrence} {tookNext : Bool}
    (h : readOption spellings word nextWord? = .ok (options, tookNext)) :
    ∀ o ∈ options, ∃ s ∈ spellings, o.setting = s.setting := by
  rw [readOption] at h
  dsimp only at h
  split at h
  · split at h
    · simp at h
    · exact readLetters_settings h
  · rename_i s hs
    have hmem := spelled?_eq_some (Option.eq_some_of_filter_eq_some hs)
    split at h
    all_goals first
      | (obtain ⟨rfl, -⟩ := Prod.mk.inj (Except.ok.inj h)
         intro o ho
         exact ⟨s, hmem, by rw [List.mem_singleton.mp ho]⟩)
      | simp at h

/-- **Options set only what they are there for.** -/
theorem parse_settings {isMixed : Bool} {words : List String}
    (h : parse spellings isMixed words = .ok p) :
    ∀ o ∈ p.options, ∃ s ∈ spellings, o.setting = s.setting := by
  fun_induction parse spellings isMixed words generalizing p with
  | case1 =>
    obtain rfl := Except.ok.inj h
    simp [Parsed.empty]
  | case2 rest =>
    obtain rfl := Except.ok.inj h
    simp
  | case3 word rest _ _ fault hread => simp at h
  | case4 word rest _ _ options tookNext hread ih =>
    -- the options of the word, and those of the words after it
    cases hrest : parse spellings isMixed (if tookNext then rest.tail else rest) with
    | error fault => simp [hrest, Except.map] at h
    | ok found =>
      rw [hrest] at h
      obtain rfl := Except.ok.inj h
      intro o ho
      rcases List.mem_append.mp ho with ho | ho
      · exact readOption_settings hread o ho
      · exact ih hrest o ho
  | case5 word rest _ _ hmixed ih =>
    cases hrest : parse spellings isMixed rest with
    | error fault => simp [hrest, Except.map] at h
    | ok found =>
      rw [hrest] at h
      obtain rfl := Except.ok.inj h
      exact ih (p := found) hrest
  | case6 word rest =>
    obtain rfl := Except.ok.inj h
    simp

/-- A setting that a command has no option for is not set. -/
theorem text?_eq_none {isMixed : Bool} {words : List String} {setting : String}
    (h : parse spellings isMixed words = .ok p) (hnone : ∀ s ∈ spellings, s.setting ≠ setting) :
    p.text? setting = none := by
  have hfind : p.options.reverse.find? (·.setting == setting) = none := by
    rw [List.find?_eq_none]
    intro o ho hsame
    obtain ⟨s, hs, hsetting⟩ := parse_settings h o (List.mem_reverse.mp ho)
    exact hnone s hs (hsetting.symm.trans (beq_iff_eq.mp hsame))
  rw [Parsed.text?, Parsed.value?, hfind]
  rfl

end Options

/-! ## Command lines -/

/-- The words after a command as they are taken apart, if nothing is wrong with them
and nothing is asked about the command. -/
structure TakenApart (c : Command) (words : List String) (p : Parsed) : Prop where
  parses : parse c.options (!c.isGroup) words = .ok p
  unasked : question? p = none

/-- A command line that calls a command: the options of the program, a group, and one
of its commands with the options and arguments after it. -/
inductive Calls : List String → Parsed → Command → Parsed → Prop
  | call {words rest rest' : List String} {program between p : Parsed} {group c : Command}
      {word word' : String} (first : TakenApart .root words program)
      (next : program.arguments = word :: rest)
      (leads : Command.root.subcommands.lookup word = some group)
      (second : TakenApart group rest between) (next' : between.arguments = word' :: rest')
      (leads' : group.subcommands.lookup word' = some c) (third : TakenApart c rest' p) :
      Calls words program c p

/-- What is there when a command starts: the configuration file that is named, and the
world in which logging is set up. -/
def Starts (env : Environment) (program : Parsed) (w : World) (configPath : Option Path)
    (w₁ : World) : Prop :=
  (configPath? program).runIn w = (.ok configPath, w) ∧
    (startLog env program).runIn w = (.ok (), w₁)

section Calls

variable {env : Environment} {words : List String} {program p : Parsed} {c : Command}
  {w w₁ : World}

/-- A path that is named is one, or it has the null character. -/
theorem configPath?_runIn (p : Parsed) (w : World) :
    (∃ path?, (configPath? p).runIn w = (.ok path?, w)) ∨
      (configPath? p).runIn w = (.error (.crash (.disk .nul)), w) := by
  rw [configPath?]
  cases (p.text? "config").filter (· ≠ "") with
  | none => exact .inl ⟨none, rfl⟩
  | some word =>
    have hmap : (some word).mapM pathOf = pathOf word >>= fun path => pure (some path) := rfl
    rw [hmap, pathOf]
    cases hnul : (Path.ofText word).hasNul with
    | true => exact .inr rfl
    | false => exact .inl ⟨_, rfl⟩

theorem configPath?_of_text {p : Parsed} (h : p.text? "config" = none) :
    configPath? p = pure none := by
  rw [configPath?, h]
  rfl

/-- Words that can be taken apart are, if the path that they name is one. -/
theorem TakenApart.takeApart_eq (h : TakenApart c words p) :
    takeApart c words = configPath? p >>= fun _ => pure p := by
  have hanswer : answer c p = pure () := by
    rw [answer, h.unasked]
  rw [takeApart, h.parses]
  dsimp only
  rw [hanswer, pure_bind]

theorem TakenApart.runIn (h : TakenApart c words p) {path? : Option Path}
    (hpath : (configPath? p).runIn w = (.ok path?, w)) :
    (takeApart c words).runIn w = (.ok p, w) := by
  rw [h.takeApart_eq, Session.runIn_bind_of_ok hpath]
  rfl

/-- Only the program itself has an option for the configuration file. -/
theorem TakenApart.runIn_of_ne (h : TakenApart c words p) (hc : c ≠ .root) (w : World) :
    (takeApart c words).runIn w = (.ok p, w) := by
  have htext : p.text? "config" = none := by
    refine text?_eq_none h.parses ?_
    cases c with
    | root => exact absurd rfl hc
    | _ => decide
  exact h.runIn (by rw [configPath?_of_text htext]; rfl)

theorem TakenApart.ne_nil (h : TakenApart c words p) {word : String} {rest : List String}
    (hp : p.arguments = word :: rest) : words.isEmpty = false := by
  cases words with
  | nil =>
    have hparses := h.parses
    rw [parse] at hparses
    obtain rfl := Except.ok.inj hparses
    simp [Parsed.empty] at hp
  | cons first others => rfl

theorem resolve_of_lookup {word : String} {rest : List String} {sub : Command}
    (h : c.subcommands.lookup word = some sub) : resolve c word rest = pure sub := by
  rw [resolve, h]

theorem nextCommand_runIn {word : String} {rest : List String} {sub : Command}
    (hp : p.arguments = word :: rest) (h : c.subcommands.lookup word = some sub) :
    nextCommand c p = pure (sub, rest) := by
  rw [nextCommand, hp]
  dsimp only
  rw [resolve_of_lookup h]
  rfl

/-- Logging is set up, or that ends the run without a word. -/
theorem startLog_runIn (env : Environment) (program : Parsed) (w : World) :
    (∃ w₁, (startLog env program).runIn w = (.ok (), w₁)) ∨
      ∃ failure w₁, (startLog env program).runIn w = (.error (.crash failure), w₁) := by
  rw [startLog, Session.runIn_attempt]
  generalize Work.runIn _ w = result
  obtain ⟨_ | _, w₁⟩ := result
  · exact .inr ⟨_, _, rfl⟩
  · exact .inl ⟨_, rfl⟩

theorem startLog_output {result : Except Ending Unit}
    (h : (startLog env program).runIn w = (result, w₁)) : w₁.output = w.output := by
  rw [startLog, Session.runIn_attempt] at h
  obtain ⟨-, rfl⟩ := Prod.mk.inj h
  have hsilent : ∀ setup, Work.Silent (Work.granted (.step (.setLog setup))) := fun setup =>
    .granted fun w => w.perform_output (.setLog setup) (by simp)
  exact hsilent _ w

theorem runGroup_runIn {path? : Option Path} {rest rest' : List String} {between : Parsed}
    {group : Command} {word' : String} (hgroup : group ≠ .root)
    (second : TakenApart group rest between) (next' : between.arguments = word' :: rest')
    (leads' : group.subcommands.lookup word' = some c) (w : World) :
    (runGroup path? group rest).runIn w = (runCommand path? c rest').runIn w := by
  rw [runGroup, second.ne_nil next']
  simp only [Bool.false_eq_true, if_false]
  rw [Session.runIn_bind_of_ok (second.runIn_of_ne hgroup w), nextCommand_runIn next' leads']
  rfl

/-- No group leads back to the program. -/
theorem ne_root_of_lookup {word : String} {sub : Command}
    (h : c.subcommands.lookup word = some sub) : sub ≠ .root := by
  obtain ⟨before, after, hall, -⟩ := List.lookup_eq_some_iff.mp h
  have hmem : sub ∈ c.subcommands.map (·.2) := by simp [hall]
  rintro rfl
  revert hmem
  cases c <;> decide

/-- **A command line that calls a command** carries it out once logging is set up. If
that does not come about, the run ends without a word. -/
theorem runProgram_of_calls (h : Calls words program c p) (env : Environment) (w : World) :
    (∃ path? w₁ rest, Starts env program w path? w₁ ∧ TakenApart c rest p ∧ c ≠ .root ∧
      (runProgram env words).runIn w = (runCommand path? c rest).runIn w₁) ∨
    ((∀ path? w₁, ¬ Starts env program w path? w₁) ∧
      ∃ failure w₁, (runProgram env words).runIn w = (.error (.crash failure), w₁) ∧
        w₁.output = w.output) := by
  cases h with
  | @call rest rest' _ between _ group _ word word' first next leads second next' leads' third =>
  have hgroup := ne_root_of_lookup leads
  have hsome := first.ne_nil next
  rcases configPath?_runIn program w with ⟨path?, hpath⟩ | hpath
  · have hrun : (runProgram env words).runIn w =
        (startLog env program >>= fun _ => runGroup path? group rest).runIn w := by
      rw [runProgram, hsome]
      simp only [Bool.false_eq_true, if_false]
      rw [Session.runIn_bind_of_ok (first.runIn hpath), Session.runIn_bind_of_ok hpath,
        nextCommand_runIn next leads]
      rfl
    rcases startLog_runIn env program w with ⟨w₁, hlog⟩ | ⟨failure, w₁, hlog⟩
    · refine .inl ⟨path?, w₁, rest', ⟨hpath, hlog⟩, third, ne_root_of_lookup leads', ?_⟩
      rw [hrun, Session.runIn_bind_of_ok hlog, runGroup_runIn hgroup second next' leads']
    · refine .inr ⟨?_, failure, w₁, ?_, startLog_output hlog⟩
      · rintro path?' w₁' ⟨-, hlog'⟩
        simp [hlog] at hlog'
      · rw [hrun, Session.runIn_bind_of_error hlog]
  · refine .inr ⟨?_, .disk .nul, w, ?_, rfl⟩
    · rintro path?' w₁' ⟨hpath', -⟩
      simp [hpath] at hpath'
    · have htaken : (takeApart .root words).runIn w = (.error (.crash (.disk .nul)), w) := by
        rw [first.takeApart_eq, Session.runIn_bind_of_error hpath]
      rw [runProgram, hsome]
      simp only [Bool.false_eq_true, if_false]
      rw [Session.runIn_bind_of_error htaken]

end Calls

end Stencil.Cli
