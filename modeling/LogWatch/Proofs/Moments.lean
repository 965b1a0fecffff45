import LogWatch.Proofs.World

/-!
# Moments of a run

A program may be stopped at any moment: between two of its steps, and amid a step that does more
than one thing.  Folders are made one below the other, and bytes are written one after the other;
all other steps are done at once.

    Meets t h p h': a plan carried out on h amid the trouble t may be stopped with h' left behind
    Passes t w x h': so may work on the store of w
-/

namespace LogWatch

/-- The step does one thing only. -/
def Request.atOnce : Request → Bool
  | .createFolder _ => false
  | .append _ _ => false
  | _ => true

namespace Host

/-- What a step leaves behind that is stopped before its end. -/
inductive Partly (h : Host) : Request → Host → Prop
  | folders (path : String) (n : Nat) : Disk.requirePath path = .ok () →
      Partly h (.createFolder path) { h with
        disk := (h.disk.makeFolders (Disk.parts h.working path).1
          ((Disk.parts h.working path).2.take n)).2 }
  | bytes (path : String) (all : ByteArray) (n : Nat) :
      Partly h (.append path all) (h.answer (.append path (all.extract 0 n))).2

theorem not_partly {h h' : Host} {q : Request} (hq : q.atOnce = true) : ¬h.Partly q h' := by
  rintro (⟨path, n, -⟩ | ⟨path, all, n⟩) <;> cases hq

inductive Meets (t : Trouble) {α : Type} : Host → Plan α → Host → Prop
  | here (h : Host) (p : Plan α) : Meets t h p h
  | amid {h h' : Host} {q : Request} (next : q.Answer → Plan α) : h.Partly q h' →
      Meets t h (.ask q next) h'
  | later {h h' : Host} {q : Request} {next : q.Answer → Plan α} :
      Meets t (h.answerAmid t q).2 (next (h.answerAmid t q).1) h' → Meets t h (.ask q next) h'

end Host

namespace World

variable {ε α β : Type} {t : Trouble} {w : World} {h : Host}

/-! ## Plans -/

theorem meets_last (t : Trouble) (w : World) (p : Plan α) :
    w.host.Meets t p (w.follow t p).2.host := by
  induction p generalizing w with
  | done a => exact .here _ _
  | ask q next ih => exact .later (ih _ (w.answer t q).2)

theorem meets_done {h h' : Host} {a : α} (hm : h.Meets t (.done a) h') : h' = h := by
  cases hm
  rfl

theorem meets_bind {p : Plan α} {f : α → Plan β} (hm : w.host.Meets t (p >>= f) h) :
    w.host.Meets t p h ∨ (w.follow t p).2.host.Meets t (f (w.follow t p).1) h := by
  induction p generalizing w with
  | done a => exact .inr hm
  | ask q next ih =>
    have hm : w.host.Meets t (.ask q fun answer => (next answer).bind f) h := hm
    cases hm with
    | here => exact .inl (.here _ _)
    | amid _ hpart => exact .inl (.amid _ hpart)
    | later hm => exact (ih (w.host.answerAmid t q).1 (w := (w.answer t q).2) hm).imp_left .later

theorem meets_request {h h' : Host} {q : Request} (hm : h.Meets t (Plan.request q) h') :
    h' = h ∨ h.Partly q h' ∨ h' = (h.answerAmid t q).2 := by
  cases hm with
  | here => exact .inl rfl
  | amid _ hpart => exact .inr (.inl hpart)
  | later hm => exact .inr (.inr (meets_done hm))

/-! ## Work -/

/-- The hosts that work may leave behind when it is stopped. -/
def Passes (t : Trouble) (w : World) (x : ExceptT ε (StateT Store Plan) α) (h : Host) : Prop :=
  w.host.Meets t (x.run.run w.store) h

theorem passes_last (t : Trouble) (w : World) (x : ExceptT ε (StateT Store Plan) α) :
    w.Passes t x (w.run t x).2.host := meets_last t w (x.run.run w.store)

theorem passes_bind {x : ExceptT ε (StateT Store Plan) α}
    {f : α → ExceptT ε (StateT Store Plan) β} (hp : w.Passes t (x >>= f) h) :
    w.Passes t x h ∨ ∃ a w', w.run t x = (.ok a, w') ∧ w'.Passes t (f a) h := by
  unfold Passes at hp
  rw [plan_bind] at hp
  obtain hfirst | hsecond := meets_bind hp
  · exact .inl hfirst
  · have hrun : w.run t x = ((w.follow t (x.run.run w.store)).1.1, _) := rfl
    cases hr : (w.follow t (x.run.run w.store)).1.1 with
    | error e =>
      rw [hr] at hsecond
      left
      rw [meets_done hsecond]
      exact passes_last t w x
    | ok a =>
      rw [hr] at hsecond hrun
      exact .inr ⟨a, _, hrun, hsecond⟩

theorem passes_plan {p : Plan α}
    (hp : w.Passes t (liftM p : ExceptT ε (StateT Store Plan) α) h) : w.host.Meets t p h := by
  unfold Passes at hp
  rw [plan_liftM] at hp
  obtain hfirst | hsecond := meets_bind hp
  · exact hfirst
  · rw [meets_done hsecond]
    exact meets_last t w p

/-- Work that takes no step. -/
theorem passes_done {x : ExceptT ε (StateT Store Plan) α} {r : Except ε α × Store}
    (hx : x.run.run w.store = .done r) (hp : w.Passes t x h) : h = w.host := by
  unfold Passes at hp
  rw [hx] at hp
  exact meets_done hp

theorem passes_access {path : String} {p : Plan (Except FileFault α)}
    (hp : w.Passes t (Store.access path p) h) : w.host.Meets t p h := by
  obtain hfirst | ⟨a, w', hrun, hsecond⟩ := passes_bind hp
  · exact passes_plan hfirst
  · rw [run_plan] at hrun
    obtain ⟨-, rfl⟩ := Prod.mk.inj hrun
    have hlast : h = (w.follow t p).2.host := by
      cases a <;> exact passes_done rfl hsecond
    rw [hlast]
    exact meets_last t w p

/-! ## What is spared -/

variable {γ : Type} {g : Host → γ}

/-- Whenever the work is stopped, the observation is what it was before. -/
def Spares (g : Host → γ) (x : ExceptT ε (StateT Store Plan) α) : Prop :=
  ∀ (t : Trouble) (w : World) (h : Host), w.Passes t x h → g h = g w.host

theorem spares_bind {x : ExceptT ε (StateT Store Plan) α}
    {f : α → ExceptT ε (StateT Store Plan) β} (hx : Spares g x) (hf : ∀ a, Spares g (f a)) :
    Spares g (x >>= f) := by
  intro t w h hp
  obtain hfirst | ⟨a, w', hrun, hsecond⟩ := passes_bind hp
  · exact hx t w h hfirst
  · have hlast := hx t w _ (passes_last t w x)
    rw [hrun] at hlast
    exact (hf a t w' h hsecond).trans hlast

/-- A step that leaves the observation, whether it is done, fails, or is stopped. -/
theorem spares_access {q : Request} {p : Plan (Except FileFault α)} (path : String)
    (hp : ∀ t (h h' : Host), h.Meets t p h' →
      h' = h ∨ h.Partly q h' ∨ h' = (h.answerAmid t q).2)
    (hq : ∀ h : Host, g (h.answer q).2 = g h) (hm : ∀ (h : Host) m, g (h.afterMishap m q) = g h)
    (hpart : ∀ h h' : Host, h.Partly q h' → g h' = g h) : Spares g (Store.access path p) := by
  intro t w h hpasses
  obtain rfl | hstopped | rfl := hp t w.host h (passes_access hpasses)
  · rfl
  · exact hpart _ _ hstopped
  · exact Host.answerAmid_of (P := fun h => g h = g w.host) (hq w.host) (hm w.host)

end World
end LogWatch
