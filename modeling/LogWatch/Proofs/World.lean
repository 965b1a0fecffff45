import LogWatch.Store.Basic

/-!
# Runs amid trouble

A world is a store, the host it stands on, and the reports that have been handed to the sink.
Work is carried out in a world with the host's own answers, save where trouble strikes: then a
step to the disk fails and leaves the disk as it is, but for an addition to a file, of which
any part may have been written.  The sink fails as it likes, since it is part of the host.
Where nothing fails, the world does what its host does.

    ((w.follow calm p).1, (w.follow calm p).2.host) = w.host.run p          (follow_calm_eq_run)
-/

namespace LogWatch

/-- How a step fails. -/
structure Mishap where
  fault : FileFault
  /-- The number of bytes of an addition that are written all the same. -/
  written : Nat := 0

/-- Which steps fail. -/
abbrev Trouble := Request → Option Mishap

/-- No step fails. -/
def calm : Trouble := fun _ => none

/-- Files are read and folders are made without fail. -/
structure Trouble.SparesReading (t : Trouble) : Prop where
  read : ∀ path, t (.read path) = none
  createFolder : ∀ path, t (.createFolder path) = none

theorem calm_sparesReading : calm.SparesReading := ⟨fun _ => rfl, fun _ => rfl⟩

/-- A read that fails does not tell that the file is missing. -/
def Trouble.Honest (t : Trouble) : Prop :=
  ∀ path m, t (.read path) = some m → m.fault ≠ .notFound

theorem Trouble.SparesReading.honest {t : Trouble} (h : t.SparesReading) : t.Honest := by
  intro path m hm
  rw [h.read path] at hm
  cases hm

/-- The answer to a step that fails; some steps cannot. -/
def Request.failure (fault : FileFault) : (q : Request) → Option q.Answer
  | .read _ => some (Except.error fault)
  | .createFolder _ => some (Except.error fault)
  | .create _ => some (Except.error fault)
  | .append _ _ => some (Except.error fault)
  | .sync _ => some (Except.error fault)
  | .rename _ _ => some (Except.error fault)
  | .remove _ => some (Except.error fault)
  | .list _ => some (Except.error fault)
  | .print _ => some (Except.error fault)
  | .isFile _ => none
  | .clock => none
  | .deliver _ _ => none

/-- The report that a step hands to the sink. -/
def Request.offer : Request → List (List Event)
  | .deliver events _ => [events]
  | _ => []

namespace Host

/-- What a failing step still does. -/
def afterMishap (h : Host) (m : Mishap) : Request → Host
  | .append path bytes => (h.answer (.append path (bytes.extract 0 m.written))).2
  | _ => h

def answerAmid (t : Trouble) (h : Host) (q : Request) : q.Answer × Host :=
  match t q with
  | none => h.answer q
  | some m =>
    match q.failure m.fault with
    | none => h.answer q
    | some a => (a, h.afterMishap m q)

/-- What holds after a step done, and after one failed, holds amid trouble. -/
theorem answerAmid_of {t : Trouble} {h : Host} {q : Request} {P : Host → Prop}
    (hq : P (h.answer q).2) (hm : ∀ m, P (h.afterMishap m q)) : P (h.answerAmid t q).2 := by
  unfold answerAmid
  cases t q with
  | none => exact hq
  | some m =>
    dsimp only
    cases q.failure m.fault with
    | none => exact hq
    | some a => exact hm m

end Host

structure World where
  store : Store
  host : Host
  /-- The reports handed to the sink, in order. -/
  offers : List (List Event) := []

namespace World

variable {ε α β : Type}

def answer (t : Trouble) (w : World) (q : Request) : q.Answer × World :=
  ((w.host.answerAmid t q).1,
    { w with host := (w.host.answerAmid t q).2, offers := w.offers ++ q.offer })

/-- Carries out a plan. -/
def follow (t : Trouble) (w : World) : Plan α → α × World
  | .done a => (a, w)
  | .ask q next => (w.answer t q).2.follow t (next (w.answer t q).1)

/-- Carries out work on the store. -/
def run (t : Trouble) (w : World) (work : ExceptT ε (StateT Store Plan) α) :
    Except ε α × World :=
  let ((result, store), w') := w.follow t (work.run.run w.store)
  (result, { w' with store })

def withStore (w : World) (s : Store) : World := { w with store := s }

/-! ## Following a plan -/

theorem follow_request (t : Trouble) (w : World) (q : Request) :
    w.follow t (Plan.request q) = w.answer t q := rfl

theorem follow_bind (t : Trouble) (w : World) (p : Plan α) (f : α → Plan β) :
    w.follow t (p >>= f) = (w.follow t p).2.follow t (f (w.follow t p).1) := by
  show w.follow t (p.bind f) = _
  induction p generalizing w with
  | done a => rfl
  | ask q next ih => exact ih _ _

/-- A plan does not see what the store knows of itself. -/
theorem follow_withStore (t : Trouble) (w : World) (s : Store) (p : Plan α) :
    (w.withStore s).follow t p = ((w.follow t p).1, (w.follow t p).2.withStore s) := by
  induction p generalizing w with
  | done a => rfl
  | ask q next ih => exact ih _ (w.answer t q).2

theorem follow_store (t : Trouble) (w : World) (p : Plan α) :
    (w.follow t p).2.store = w.store := by
  induction p generalizing w with
  | done a => rfl
  | ask q next ih => exact ih _ (w.answer t q).2

/-! ## Running work -/

theorem run_get (t : Trouble) (w : World) :
    w.run t (get : ExceptT ε (StateT Store Plan) Store) = (.ok w.store, w) := rfl

theorem run_withStore (t : Trouble) (w : World) (s : Store)
    (x : ExceptT ε (StateT Store Plan) α) :
    (w.withStore s).run t x =
      ((w.follow t (x.run.run s)).1.1,
        (w.follow t (x.run.run s)).2.withStore (w.follow t (x.run.run s)).1.2) := by
  show (((w.withStore s).follow t (x.run.run s)).1.1,
    ((w.withStore s).follow t (x.run.run s)).2.withStore
      ((w.withStore s).follow t (x.run.run s)).1.2) = _
  rw [follow_withStore]
  rfl

/-- The plan of work after other work. -/
theorem plan_bind (x : ExceptT ε (StateT Store Plan) α) (f : α → ExceptT ε (StateT Store Plan) β)
    (s : Store) :
    (x >>= f).run.run s = x.run.run s >>= fun r =>
      match r.1 with
      | .ok a => (f a).run.run r.2
      | .error e => pure (.error e, r.2) := by
  show (x.run.run s >>= fun r => (ExceptT.bindCont f r.1).run r.2) = _
  congr 1
  funext r
  cases r.1 <;> rfl

theorem run_bind (t : Trouble) (w : World) (x : ExceptT ε (StateT Store Plan) α)
    (f : α → ExceptT ε (StateT Store Plan) β) :
    w.run t (x >>= f) =
      match w.run t x with
      | (.ok a, w') => w'.run t (f a)
      | (.error e, w') => (.error e, w') := by
  have hrun : w.run t x = _ := run_withStore t w w.store x
  have hbind : w.run t (x >>= f) = _ := run_withStore t w w.store (x >>= f)
  rw [hbind, hrun, plan_bind, follow_bind]
  cases (w.follow t (x.run.run w.store)).1.1 with
  | error e => rfl
  | ok a => exact (run_withStore t _ _ (f a)).symm

theorem run_bind_of_ok {t : Trouble} {w w' : World} {x : ExceptT ε (StateT Store Plan) α} {a : α}
    (h : w.run t x = (.ok a, w')) (f : α → ExceptT ε (StateT Store Plan) β) :
    w.run t (x >>= f) = w'.run t (f a) := by
  rw [run_bind, h]

theorem run_bind_eq_ok {t : Trouble} {w w'' : World} {x : ExceptT ε (StateT Store Plan) α}
    {f : α → ExceptT ε (StateT Store Plan) β} {b : β} :
    w.run t (x >>= f) = (.ok b, w'') ↔
      ∃ a w', w.run t x = (.ok a, w') ∧ w'.run t (f a) = (.ok b, w'') := by
  rw [run_bind]
  rcases w.run t x with ⟨_ | a, w'⟩
  · simp
  · constructor
    · exact fun h => ⟨a, w', rfl, h⟩
    · rintro ⟨_, _, h, h'⟩
      cases h
      exact h'

/-- The plan of work that is a plan. -/
theorem plan_liftM (p : Plan α) (s : Store) :
    (liftM p : ExceptT ε (StateT Store Plan) α).run.run s =
      p >>= fun a => pure (.ok a, s) := by
  rw [bind_pure_comp]
  show (fun r : α × Store => ((Except.ok r.1 : Except ε α), r.2)) <$>
    (p >>= fun a => pure (a, s)) = _
  rw [map_bind, ← bind_pure_comp]
  simp only [map_pure]

theorem run_plan (t : Trouble) (w : World) (p : Plan α) :
    w.run t (liftM p : ExceptT ε (StateT Store Plan) α) =
      (.ok (w.follow t p).1, (w.follow t p).2) := by
  have hrun : w.run t (liftM p : ExceptT ε (StateT Store Plan) α) = _ :=
    run_withStore t w w.store _
  rw [hrun, plan_liftM, follow_bind]
  show (Except.ok (w.follow t p).1, (w.follow t p).2.withStore w.store) = _
  rw [← follow_store t w p]
  rfl

theorem run_plan_of {t : Trouble} {w w' : World} {p : Plan α} {a : α}
    (h : w.follow t p = (a, w')) :
    w.run t (liftM p : ExceptT ε (StateT Store Plan) α) = (.ok a, w') := by
  rw [run_plan, h]

/-- Work whose errors are passed on as other errors. -/
theorem run_mapError {ε' : Type} {g : ε → ε'} {x : ExceptT ε (StateT Store Plan) α}
    {y : ExceptT ε' (StateT Store Plan) α} (h : y.run = x.run >>= fun r => pure (r.mapError g))
    (t : Trouble) (w : World) : w.run t y = ((w.run t x).1.mapError g, (w.run t x).2) := by
  have hplan : y.run.run w.store = x.run.run w.store >>= fun r => pure (r.1.mapError g, r.2) := by
    rw [h]
    rfl
  have hrun : w.run t y = _ := run_withStore t w w.store y
  rw [hrun, hplan, follow_bind]
  rfl

/-! ## Where nothing fails -/

/-- A calm world answers as its host does. -/
theorem answer_calm (w : World) (q : Request) :
    w.answer calm q =
      ((w.host.answer q).1,
        { w with host := (w.host.answer q).2, offers := w.offers ++ q.offer }) := rfl

/-- A calm world follows a plan as its host carries it out. -/
theorem follow_calm_eq_run (w : World) (p : Plan α) :
    ((w.follow calm p).1, (w.follow calm p).2.host) = w.host.run p := by
  induction p generalizing w with
  | done a => rfl
  | ask q next ih =>
    unfold follow Host.run
    rw [answer_calm]
    exact ih _ _

/-- Work on the store ends in a calm world as on its host, with the same store. -/
theorem run_calm_eq_run (w : World) (work : ExceptT ε (StateT Store Plan) α) :
    (((w.run calm work).1, (w.run calm work).2.store), (w.run calm work).2.host) =
      w.host.run (work.run.run w.store) := by
  rw [← follow_calm_eq_run]
  rfl

/-! ## What work keeps -/

variable {γ : Type} {f : World → γ}

/-- Work that an observation of the world does not see, whatever fails. -/
def Keeps (f : World → γ) (x : ExceptT ε (StateT Store Plan) α) : Prop :=
  ∀ (t : Trouble) (w : World), f (w.run t x).2 = f w

theorem keeps_pure (f : World → γ) (a : α) :
    Keeps f (pure a : ExceptT ε (StateT Store Plan) α) := fun _ _ => rfl

theorem keeps_throw (f : World → γ) (e : ε) :
    Keeps f (throw e : ExceptT ε (StateT Store Plan) α) := fun _ _ => rfl

theorem keeps_bind {x : ExceptT ε (StateT Store Plan) α}
    {g : α → ExceptT ε (StateT Store Plan) β} (hx : Keeps f x) (hg : ∀ a, Keeps f (g a)) :
    Keeps f (x >>= g) := by
  intro t w
  have hw := hx t w
  rw [run_bind]
  rcases hr : w.run t x with ⟨e | a, w'⟩
  · rw [hr] at hw
    exact hw
  · rw [hr] at hw
    exact (hg a t w').trans hw

theorem keeps_plan {p : Plan α} (hp : ∀ t w, f (w.follow t p).2 = f w) :
    Keeps f (liftM p : ExceptT ε (StateT Store Plan) α) := by
  intro t w
  rw [run_plan]
  exact hp t w

end World
end LogWatch
