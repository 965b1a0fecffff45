import LogWatch.Program
import LogWatch.Proofs.Scanner.Cycle
import LogWatch.Proofs.Store.Calm

/-!
# Carrying out a command line

A command line reads its settings and the payload that it names, which changes nothing, and then
works on the store of its state folder.  What the store knows of itself is forgotten at the end.

    prepared t w s line = .ok (f, folder) →
      w.follow t (execute s line) = ((w.withStore (Store.under folder)).run t (perform line f)).1, …
                                                                                (follow_execute)
-/

namespace LogWatch

namespace World

variable {α : Type} (t : Trouble) (w : World)

/-- Reading the settings changes nothing. -/
theorem follow_load (file : Option String) : (w.follow t (Settings.load file)).2 = w := by
  cases file with
  | none => rfl
  | some path =>
    unfold Settings.load
    rw [follow_bind, follow_readText]
    cases (w.follow t (Plan.readText path)).1 with
    | error fault => rfl
    | ok s =>
      dsimp only
      cases Settings.parse? s <;> rfl

theorem follow_payload (o : Overrides) : (w.follow t (Program.payload o)).2 = w := by
  unfold Program.payload
  cases o.external with
  | none => rfl
  | some path =>
    dsimp only
    rw [follow_bind, follow_readText]
    cases (w.follow t (Plan.readText path)).1 <;> rfl

/-! ## Steps of a command -/

theorem run_onSettings (e : Except Settings.Error α) :
    w.run t (Program.onSettings e) = (e.mapError Program.Error.ofSettings, w) := by
  cases e <;> rfl

theorem run_onStore_command (x : Store.Task α) :
    w.run t (Program.onStore x) = ((w.run t x).1.mapError .store, (w.run t x).2) := by
  refine run_mapError (congrArg (x.run >>= ·) (funext fun r => ?_)) t w
  cases r <;> rfl

theorem run_onCycle (x : Scanner.Cycle α) :
    w.run t (Program.onCycle x) = ((w.run t x).1.mapError .scan, (w.run t x).2) := by
  refine run_mapError (congrArg (x.run >>= ·) (funext fun r => ?_)) t w
  cases r <;> rfl

/-- The world with more output. -/
def printed (w : World) (text : String) : World :=
  { w with host.output := w.host.output ++ text }

theorem run_print (text : String) :
    w.run calm (Program.print text) = (.ok (), w.printed text) := by
  have hanswer : w.answer calm (.print text) = (.ok (), w.printed text) := by
    rw [answer_of_silent (t := calm) rfl rfl]
    rfl
  unfold Program.print
  rw [run_bind, run_plan, follow_request, hanswer]
  rfl

end World

namespace Program

variable {t : Trouble} {w : World} {s : Surroundings} {line : CommandLine}

/-- The settings and the state folder that a command line works with. -/
def prepared (t : Trouble) (w : World) (s : Surroundings) (line : CommandLine) :
    Except Error (FilterSettings × String) := do
  let settings ← (w.follow t (Settings.load line.config)).1.mapError .config
  let payload ← (w.follow t (payload line.overrides)).1
  return (settings.filter.override line.overrides payload,
    (line.stateFolder.or settings.storeFolder).getD s.defaultStateFolder)

theorem prepared_eq_ok {f : FilterSettings} {folder : String} :
    prepared t w s line = .ok (f, folder) ↔
      ∃ settings p, (w.follow t (Settings.load line.config)).1 = .ok settings ∧
        (w.follow t (payload line.overrides)).1 = .ok p ∧
        f = settings.filter.override line.overrides p ∧
        folder = (line.stateFolder.or settings.storeFolder).getD s.defaultStateFolder := by
  unfold prepared
  simp only [bind_eq_ok, mapError_eq_ok, pure, Except.pure, Except.ok.injEq, Prod.mk.injEq,
    @eq_comm _ f, @eq_comm _ folder, exists_and_left]

/-- A command is carried out on the store of its state folder. -/
theorem follow_execute {f : FilterSettings} {folder : String}
    (h : prepared t w s line = .ok (f, folder)) :
    w.follow t (execute s line) =
      (((w.withStore (Store.under folder)).run t (perform line f)).1,
        ((w.withStore (Store.under folder)).run t (perform line f)).2.withStore w.store) := by
  obtain ⟨settings, p, hsettings, hpayload, rfl, rfl⟩ := prepared_eq_ok.mp h
  have hload : w.follow t (Settings.load line.config) = (.ok settings, w) :=
    Prod.ext hsettings (World.follow_load t w _)
  have hread : w.follow t (payload line.overrides) = (.ok p, w) :=
    Prod.ext hpayload (World.follow_payload t w _)
  unfold execute
  rw [World.follow_bind, hload]
  dsimp only
  rw [World.follow_bind, hread]
  dsimp only
  rw [World.follow_bind, World.run_withStore]
  refine Prod.ext rfl ?_
  dsimp only [World.withStore]
  rw [← World.follow_store t w]
  rfl

end Program
end LogWatch
