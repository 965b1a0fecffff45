import LogWatch.Proofs.Delivery.News
import LogWatch.Proofs.Scanner.Cycle

/-!
# Delivery from a growing log

A scanner is run again and again over a log that only grows, with other scanners at work on
the same store in between, and with a sink and saves that fail as they like.  A run is
acknowledged when the sink has taken its report and the save has succeeded.  Then every run
offers the sink the matching events that came since the last acknowledged run, newest first and
up to the cap, and does nothing if there are none.

The invariant: the record of the scanner's identity is the last matching event of the log as
the last acknowledged run saw it.
-/

namespace LogWatch

open Text

/-- The text of the file at a written path. -/
def World.textAt (w : World) (path : String) : Except FileFault String :=
  textOf (w.host.disk.fileAt w.host.working path)

theorem World.textAt_of_file {w : World} {path s : String} {p : Path}
    (hl : w.host.disk.locate w.host.working path = .ok p)
    (hg : w.host.disk.get? p = some (.file s.toUTF8)) : w.textAt path = .ok s := by
  unfold World.textAt
  rw [(Disk.fileAt_eq_ok hl).mpr hg]
  dsimp only [textOf]
  rw [fromUTF8?_toUTF8]

/-- What is read of a log file that can be opened. -/
theorem World.follow_log {t : Trouble} {w : World} {path log : String} (ht : t.SparesReading)
    (h : w.textAt path = .ok log) (limit : Time.TimeLimit) :
    w.follow t (Source.logFile path limit).events =
      ((Source.eventsOfLog (Time.windowStart w.host.now limit) log).mapError
        (.badLine path), w) := by
  have htext : textOf (w.host.disk.fileAt w.host.working path) = .ok log := h
  rw [follow_events_logFile, follow_readText_of_spared ht, htext]

/-- Where reading succeeds the log file has been opened. -/
theorem World.textAt_of_follow {t : Trouble} {w : World} {path : String} {limit : Time.TimeLimit}
    {events : List Event} (h : (w.follow t (Source.logFile path limit).events).1 = .ok events) :
    ∃ log, w.textAt path = .ok log ∧
      Source.eventsOfLog (Time.windowStart w.host.now limit) log = .ok events := by
  rw [follow_events_logFile] at h
  rcases follow_readText_cases t w path with ⟨m, -, hfailed⟩ | hopened
  · rw [hfailed] at h
    cases h
  · rw [hopened] at h
    cases htext : w.textAt path with
    | error fault =>
      rw [show textOf (w.host.disk.fileAt w.host.working path) = _ from htext] at h
      cases h
    | ok log =>
      rw [show textOf (w.host.disk.fileAt w.host.working path) = _ from htext] at h
      exact ⟨log, rfl, mapError_eq_ok.mp h⟩

namespace Scanner

/-- One run over the log. -/
structure Visit where
  log : String
  /-- The events of the log, in its order. -/
  events : List Event
  /-- What the run handed to the sink. -/
  offers : List (List Event)
  result : Except Error Outcome

def Visit.acknowledged (v : Visit) : Bool := Scanner.acknowledged v.result

/-- The events of the log at the last acknowledged visit. -/
def covered (vs : List Visit) : List Event :=
  ((vs.filter Visit.acknowledged).getLast?.map Visit.events).getD []

/-- The matching events that came after the last acknowledged visit, newest first. -/
def news (s : Scanner) (vs : List Visit) (events : List Event) : List Event :=
  ((events.drop (covered vs).length).filter s.filter.accepts).reverse

/-- The events of all acknowledged reports, the first reports first, in the order of the log. -/
def delivered (vs : List Visit) : List Event :=
  (vs.filter Visit.acknowledged).flatMap fun v => v.offers.flatten.reverse

/-- The log is as a run may find it after these visits. -/
structure Ready (s : Scanner) (path : String) (limit : Time.TimeLimit) (vs : List Visit)
    (w : World) (t : Trouble) (log : String) (events : List Event) : Prop where
  spared : t.SparesReading
  text : w.textAt path = .ok log
  decodes : Source.Holds log events
  grown : ∀ v ∈ vs, linesOf v.log <+: linesOf log
  ordered : Ordered events
  distinct : Distinct (events.filter s.filter.accepts)
  plain : ∀ e ∈ events, e.instant.HasPlainYear
  /-- What is not covered yet is later than the start of the window. -/
  inWindow : ∀ e ∈ events.drop (covered vs).length, s.filter.accepts e = true →
    Time.windowStart w.host.now limit < e.instant

/-- A run over the log. -/
def visit (s : Scanner) (w : World) (t : Trouble) (log : String) (events : List Event) : Visit where
  log := log
  events := events
  offers := (w.run t (s.run deliver)).2.offers.drop w.offers.length
  result := (w.run t (s.run deliver)).1

/-- The visits of a scanner to its log, from a world without a record for it.  Between two visits
anything may happen that keeps the record, and scanners of other identities may run. -/
inductive History (s : Scanner) (path : String) (limit : Time.TimeLimit) :
    List Visit → World → Prop
  | start {w : World} : w.record s.identity = .ok none → History s path limit [] w
  | aside {vs : List Visit} {w w' : World} : History s path limit vs w →
      w'.record s.identity = w.record s.identity → History s path limit vs w'
  | other {vs : List Visit} {w : World} (o : Scanner) (t : Trouble) :
      History s path limit vs w → o.identity ≠ s.identity →
      History s path limit vs (w.run t (o.run deliver)).2
  | own {vs : List Visit} {w : World} (t : Trouble) (log : String) (events : List Event) :
      History s path limit vs w → Ready s path limit vs w t log events →
      History s path limit (vs ++ [s.visit w t log events]) (w.run t (s.run deliver)).2

/-! ## Lemmas -/

theorem covered_concat (vs : List Visit) (v : Visit) :
    covered (vs ++ [v]) = if v.acknowledged then v.events else covered vs := by
  unfold covered
  cases h : v.acknowledged <;> simp [h]

theorem delivered_concat (vs : List Visit) (v : Visit) :
    delivered (vs ++ [v]) =
      delivered vs ++ if v.acknowledged then v.offers.flatten.reverse else [] := by
  unfold delivered
  cases h : v.acknowledged <;> simp [h]

section Step

variable {c : Configuration} {s : Scanner} {path : String} {vs : List Visit} {w : World}
  {t : Trouble} {log : String} {events : List Event}

theorem make_logFile (hs : make c = .ok s) (hsource : c.source = .logFile)
    (hpath : c.eventsPath = some path) :
    s.config = c ∧ s.identity = c.identity ∧ s.source = .logFile path c.timeLimit := by
  unfold make Source.ofConfiguration at hs
  rw [hsource, hpath] at hs
  dsimp only at hs
  split at hs
  · simp at hs
  · rw [← Except.ok.inj hs]
    exact ⟨rfl, rfl, rfl⟩

theorem follow_log (hsource : s.source = .logFile path c.timeLimit)
    (h : Ready s path c.timeLimit vs w t log events) :
    w.follow t s.source.events =
      (.ok (events.reverse.takeWhile fun e =>
        Time.windowStart w.host.now c.timeLimit < e.instant), w) := by
  rw [hsource, World.follow_log h.spared h.text, Source.eventsOfLog_eq h.decodes]
  rfl

/-- What is not covered yet is later than the start of the window. -/
theorem Ready.late {newer : List Event}
    (h : Ready s path c.timeLimit vs w t log (covered vs ++ newer)) :
    ∀ e ∈ newer.filter s.filter.accepts,
      Time.windowStart w.host.now c.timeLimit < e.instant := by
  intro e he
  have hin := h.inWindow e
  rw [List.drop_left] at hin
  exact hin (List.mem_filter.mp he).1 (List.mem_filter.mp he).2

/-- What is new of the events that a run selects. -/
theorem unreported_selected {newer : List Event}
    (h : Ready s path c.timeLimit vs w t log (covered vs ++ newer)) :
    unreported (watermarkOf ((covered vs).filter s.filter.accepts))
        (s.filter.select s.config.cap ((covered vs ++ newer).reverse.takeWhile fun e =>
          Time.windowStart w.host.now c.timeLimit < e.instant)) =
      capped s.config.cap (newer.filter s.filter.accepts).reverse := by
  have ho := h.ordered.filter s.filter.accepts
  have hd := h.distinct
  rw [List.filter_append] at ho hd
  rw [Filter.select_eq, filter_recent h.ordered, List.filter_append, unreported_capped,
    unreported_recent ho hd _ h.late]

/-- Where there is news, the first event that a run selects is the last matching one. -/
theorem newest_selected (hcap : ∀ n, s.config.cap = some n → 0 < n) {newer : List Event}
    (h : Ready s path c.timeLimit vs w t log (covered vs ++ newer))
    (hnews : newer.filter s.filter.accepts ≠ []) {newest : Event} {rest : List Event}
    (hsel : s.filter.select s.config.cap ((covered vs ++ newer).reverse.takeWhile fun e =>
      Time.windowStart w.host.now c.timeLimit < e.instant) = newest :: rest) :
    newest ∈ newer ∧
      watermarkOf ((covered vs ++ newer).filter s.filter.accepts) = some newest.identity := by
  obtain ⟨front, last, hlast⟩ := (List.eq_nil_or_concat _).resolve_left hnews
  rw [List.concat_eq_append] at hlast
  rw [Filter.select_eq, filter_recent h.ordered, List.filter_append,
    filter_append_reverse _ h.late, hlast, List.reverse_append] at hsel
  obtain ⟨ys, hy⟩ := capped_cons hcap last (front.reverse ++
    (((covered vs).filter s.filter.accepts).filter fun e =>
      Time.windowStart w.host.now c.timeLimit < e.instant).reverse)
  obtain ⟨rfl, -⟩ := List.cons.inj (hsel.symm.trans hy)
  have hmem : newest ∈ newer.filter s.filter.accepts := by
    rw [hlast]
    exact List.mem_append_right _ List.mem_cons_self
  refine ⟨(List.mem_filter.mp hmem).1, ?_⟩
  rw [List.filter_append, hlast, ← List.append_assoc, watermarkOf_concat]

/-- One visit: it offers the news, and if it is acknowledged the record becomes the last matching
event of the log. -/
theorem visit_spec (hk : Store.isKey s.identity = true)
    (hsource : s.source = .logFile path c.timeLimit) (hcap : ∀ n, s.config.cap = some n → 0 < n)
    (h : Ready s path c.timeLimit vs w t log events) (hbegins : covered vs <+: events)
    (hrecord : w.record s.identity = .ok (watermarkOf ((covered vs).filter s.filter.accepts))) :
    ((s.visit w t log events).offers =
        if s.news vs events = [] then [] else [capped s.config.cap (s.news vs events)]) ∧
      ((s.visit w t log events).result = .ok skippedOutcome ↔ s.news vs events = []) ∧
      ((s.visit w t log events).acknowledged = true → s.news vs events ≠ []) ∧
      (w.run t (s.run deliver)).2.record s.identity =
        .ok (watermarkOf ((covered (vs ++ [s.visit w t log events])).filter s.filter.accepts)) := by
  obtain ⟨newer, rfl⟩ := hbegins
  obtain ⟨hoffers, hresult, hack, hkept⟩ :=
    run_spec h.spared hk (follow_log hsource h) hrecord rfl (unreported_selected h)
  have hnews : s.news vs (covered vs ++ newer) = (newer.filter s.filter.accepts).reverse := by
    unfold news
    rw [List.drop_left]
  have hnil : capped s.config.cap (s.news vs (covered vs ++ newer)) = [] ↔
      s.news vs (covered vs ++ newer) = [] := capped_eq_nil_iff hcap
  rw [← hnews, hnil] at hresult
  rw [← hnews] at hoffers hack
  refine ⟨?_, hresult, fun ha => mt hnil.mpr (hack ha).1, ?_⟩
  · show (w.run t (s.run deliver)).2.offers.drop w.offers.length = _
    rw [hoffers, List.drop_left]
    simp only [hnil]
  · rw [covered_concat]
    cases ha : (s.visit w t log (covered vs ++ newer)).acknowledged with
    | false => exact hkept ha
    | true =>
      obtain ⟨hne, newest, rest, hsel, hmoved⟩ := hack ha
      have hmatching : newer.filter s.filter.accepts ≠ [] := by
        rwa [ne_eq, hnil, hnews, List.reverse_eq_nil_iff] at hne
      obtain ⟨hmem, hmark⟩ := newest_selected hcap h hmatching hsel
      have hplain : newest.instant.HasPlainYear := h.plain newest (List.mem_append_right _ hmem)
      rw [hmoved, Store.readBack_of_plain hplain, ← hmark]
      rfl

end Step

/-! ## Histories -/

section Histories

variable {c : Configuration} {s : Scanner} {path : String} {vs : List Visit} {w : World}

/-- What has been covered is the beginning of every later log. -/
theorem covered_prefix {log : String} {events : List Event}
    (hvs : ∀ v ∈ vs, Source.Holds v.log v.events) (hgrown : ∀ v ∈ vs, linesOf v.log <+: linesOf log)
    (h : Source.Holds log events) : covered vs <+: events := by
  unfold covered
  cases hl : (vs.filter Visit.acknowledged).getLast? with
  | none => exact List.nil_prefix
  | some v =>
    have hv : v ∈ vs := (List.mem_filter.mp (List.mem_of_getLast? hl)).1
    exact (hvs v hv).beginning h (hgrown v hv)

/-- What every visit has done, and where the record stands after them. -/
structure Kept (s : Scanner) (vs : List Visit) (w : World) : Prop where
  record : w.record s.identity = .ok (watermarkOf ((covered vs).filter s.filter.accepts))
  decodes : ∀ v ∈ vs, Source.Holds v.log v.events
  offers : ∀ us v, us ++ [v] <+: vs →
    v.offers = if s.news us v.events = [] then [] else [capped s.config.cap (s.news us v.events)]
  results : ∀ us v, us ++ [v] <+: vs → (v.result = .ok skippedOutcome ↔ s.news us v.events = [])
  sublist : (delivered vs).Sublist ((covered vs).filter s.filter.accepts)
  whole : s.config.cap = none → delivered vs = (covered vs).filter s.filter.accepts

theorem kept_start (h : w.record s.identity = .ok none) : Kept s [] w where
  record := h
  decodes := by simp
  offers := by simp
  results := by simp
  sublist := .refl _
  whole := fun _ => rfl

theorem Kept.of_record {w' : World} (h : Kept s vs w)
    (hr : w'.record s.identity = w.record s.identity) : Kept s vs w' :=
  { h with record := hr.trans h.record }

/-- A property of every visit with the visits before it holds of one more. -/
theorem forall_prefix_concat {p : List Visit → Visit → Prop} {v : Visit}
    (h : ∀ us v, us ++ [v] <+: vs → p us v) (hv : p vs v) :
    ∀ us u, us ++ [u] <+: vs ++ [v] → p us u := by
  intro us u hu
  rcases List.prefix_concat_iff.mp hu with heq | hu
  · obtain ⟨rfl, hsame⟩ := List.append_inj' heq rfl
    rw [List.singleton_inj.mp hsame]
    exact hv
  · exact h us u hu

/-- An acknowledged visit delivers the news that the cap leaves. -/
theorem delivered_own {v : Visit} (hbegins : covered vs <+: v.events)
    (hack : v.acknowledged = true → s.news vs v.events ≠ [])
    (hoffers : v.offers =
      if s.news vs v.events = [] then [] else [capped s.config.cap (s.news vs v.events)])
    (hs : (delivered vs).Sublist ((covered vs).filter s.filter.accepts)) :
    (delivered (vs ++ [v])).Sublist ((covered (vs ++ [v])).filter s.filter.accepts) ∧
      (s.config.cap = none → delivered vs = (covered vs).filter s.filter.accepts →
        delivered (vs ++ [v]) = (covered (vs ++ [v])).filter s.filter.accepts) := by
  rw [delivered_concat, covered_concat]
  cases ha : v.acknowledged with
  | false =>
    simp only [Bool.false_eq_true, if_false, List.append_nil]
    exact ⟨hs, fun _ h => h⟩
  | true =>
    obtain ⟨newer, hnewer⟩ := hbegins
    rw [if_neg (hack ha)] at hoffers
    unfold news at hoffers
    rw [← hnewer, List.drop_left] at hoffers
    simp only [if_true]
    rw [hoffers, ← hnewer, List.filter_append, List.flatten_singleton]
    constructor
    · refine hs.append ?_
      have h := (capped_sublist s.config.cap (newer.filter s.filter.accepts).reverse).reverse
      rwa [List.reverse_reverse] at h
    · intro hcap hd
      rw [hd, hcap]
      dsimp only [capped]
      rw [List.reverse_reverse]

theorem Kept.own (hk : Store.isKey s.identity = true)
    (hsource : s.source = .logFile path c.timeLimit) (hcap : ∀ n, s.config.cap = some n → 0 < n)
    {t : Trouble} {log : String} {events : List Event} (h : Kept s vs w)
    (hr : Ready s path c.timeLimit vs w t log events) :
    Kept s (vs ++ [s.visit w t log events]) (w.run t (s.run deliver)).2 := by
  have hbegins := covered_prefix h.decodes hr.grown hr.decodes
  obtain ⟨hoffers, hresult, hack, hrecord⟩ := visit_spec hk hsource hcap hr hbegins h.record
  have hd := delivered_own (v := s.visit w t log events) hbegins hack hoffers h.sublist
  refine ⟨hrecord, ?_, forall_prefix_concat h.offers hoffers,
    forall_prefix_concat h.results hresult, hd.1, fun hc => hd.2 hc (h.whole hc)⟩
  intro v hv
  rcases List.mem_append.mp hv with hv | hv
  · exact h.decodes v hv
  · rw [List.mem_singleton.mp hv]
    exact hr.decodes

theorem History.kept (hk : Store.isKey s.identity = true)
    (hsource : s.source = .logFile path c.timeLimit) (hcap : ∀ n, s.config.cap = some n → 0 < n)
    (h : History s path c.timeLimit vs w) : Kept s vs w := by
  induction h with
  | start h => exact kept_start h
  | aside _ hr ih => exact ih.of_record hr
  | other o t _ hne ih => exact ih.of_record (keeps_record_run hk hne.symm t _)
  | own t log events _ hr ih => exact ih.own hk hsource hcap hr

/-! ## Top theorem -/

/-- Every run offers the sink exactly the matching events that came since the last acknowledged
run, newest first and up to the cap, and is skipped exactly when there are none.  Hence no event is
delivered twice or out of order, and without a cap none is left out. -/
theorem offers_exactly_once (hs : make c = .ok s) (hsource : c.source = .logFile)
    (hpath : c.eventsPath = some path) (h : History s path c.timeLimit vs w) :
    (∀ us v, us ++ [v] <+: vs →
      v.offers = (if s.news us v.events = [] then [] else [capped c.cap (s.news us v.events)]) ∧
        (v.result = .ok skippedOutcome ↔ s.news us v.events = [])) ∧
      (delivered vs).Sublist ((covered vs).filter s.filter.accepts) ∧
      (c.cap = none → delivered vs = (covered vs).filter s.filter.accepts) := by
  obtain ⟨hconfig, hidentity, hlog⟩ := make_logFile hs hsource hpath
  have hk : Store.isKey s.identity = true := by
    rw [hidentity]
    exact Store.isKey_identity c
  have hcap : ∀ n, s.config.cap = some n → 0 < n := by
    rw [hconfig]
    exact fun n => Configuration.cap_pos
  have hkept := h.kept hk hlog hcap
  rw [← hconfig]
  exact ⟨fun us v hv => ⟨hkept.offers us v hv, hkept.results us v hv⟩, hkept.sublist,
    hkept.whole⟩

end Histories

/-! ## A history -/

namespace Sample

def config : Configuration where
  filter := "EventID > 3"
  timeLimit := .hour
  maxMessages := 0
  remoteMachine := ""
  eventLog := "System"
  eventsPath := some "log"

def filter : Filter :=
  match Filter.compile config.filter with
  | .ok f => f
  | .error _ => .matchAll

def scanner : Scanner where
  config := config
  identity := "B9A553DA22A08EF05229822FD5EF9DA192003C08C434DC30A42615034F4817CD"
  filter := filter
  source := .logFile "log" .hour

theorem make_config : make config = .ok scanner := by
  have hidentity : config.identity = scanner.identity := by decide +kernel
  have hfilter : Filter.compile config.filter = .ok filter := by
    have hok : (Filter.compile config.filter).isOk = true := by decide +kernel
    unfold filter
    cases h : Filter.compile config.filter with
    | ok f => rfl
    | error r =>
      rw [h] at hok
      cases hok
  unfold make
  rw [hfilter, hidentity]
  rfl

def firstLine : String := "\x7b\"EventID\":5\x7d\n"

def moreLines : String := "\x7b\"EventID\":6\x7d\n\x7b\"EventID\":1\x7d\n"

/-- The events of the longer log, all of one instant; the last does not match. -/
def events : List Event := [{ eventId := 5 }, { eventId := 6 }, { eventId := 1 }]

/-- A log of one line, and a sink that refuses. -/
def before : World where
  store := ⟨"s", false⟩
  host := {
    disk := ⟨[(["log"], .file firstLine.toUTF8)]⟩
    sink := .refusing "unreachable" }

/-- After a refused run two lines have been appended, and the sink is back. -/
def grown : World :=
  let w := (before.run calm (scanner.run deliver)).2
  { w with
    host.disk := w.host.disk.set ["log"] (.file (firstLine ++ moreLines).toUTF8)
    host.sink := .writing .text }

def refused : Visit := scanner.visit before calm firstLine [{ eventId := 5 }]

/-- The first run leaves the store without a record, and so do the appended lines. -/
theorem record_grown :
    before.record scanner.identity = .ok none ∧ refused.acknowledged = false ∧
      grown.record scanner.identity =
        (before.run calm (scanner.run deliver)).2.record scanner.identity := by
  decide +kernel

theorem covered_refused : covered [refused] = [] := by
  rw [show [refused] = [] ++ [refused] from rfl, covered_concat, record_grown.2.1]
  rfl

/-- What both runs find. -/
theorem ready :
    Ready scanner "log" .hour [] before calm firstLine [{ eventId := 5 }] ∧
      Ready scanner "log" .hour [refused] grown calm (firstLine ++ moreLines) events := by
  have hpath : before.host.disk.locate before.host.working "log" = .ok ["log"] ∧
      grown.host.disk.locate grown.host.working "log" = .ok ["log"] := by
    decide +kernel
  have hdecodes : Source.Holds firstLine [{ eventId := 5 }] ∧
      Source.Holds (firstLine ++ moreLines) events ∧
      linesOf firstLine <+: linesOf (firstLine ++ moreLines) := by
    decide +kernel
  have hdistinct : Distinct (events.filter scanner.filter.accepts) := by decide +kernel
  have hnow : grown.host.now = .epoch := by decide +kernel
  constructor
  · exact {
      spared := calm_sparesReading
      text := World.textAt_of_file hpath.1 rfl
      decodes := hdecodes.1
      grown := by simp
      ordered := by decide
      distinct := by decide +kernel
      plain := by decide
      inWindow := by decide +kernel }
  · exact {
      spared := calm_sparesReading
      text := World.textAt_of_file hpath.2 (Disk.get?_set_same (by simp) _)
      decodes := hdecodes.2.1
      grown := by
        intro v hv
        rw [List.mem_singleton.mp hv]
        exact hdecodes.2.2
      ordered := by decide
      distinct := hdistinct
      plain := by decide
      inWindow := by
        rw [covered_refused, hnow]
        decide +kernel }

end Sample

/-- The first report is refused; the second holds both matching events, in spite of their common
instant. -/
theorem offers_exactly_once_after_refusal :
    ∃ w, History Sample.scanner "log" .hour
        [Sample.refused, Sample.scanner.visit Sample.grown calm
          (Sample.firstLine ++ Sample.moreLines) Sample.events] w ∧
      Sample.refused.offers = [[{ eventId := 5 }]] ∧
      (Sample.scanner.visit Sample.grown calm (Sample.firstLine ++ Sample.moreLines)
        Sample.events).offers = [[{ eventId := 6 }, { eventId := 5 }]] := by
  obtain ⟨hnone, -, hkept⟩ := Sample.record_grown
  have hgrown : History Sample.scanner "log" .hour [Sample.refused] Sample.grown :=
    .aside (.own calm _ _ (.start hnone) Sample.ready.1) hkept
  have hall := History.own calm _ _ hgrown Sample.ready.2
  obtain ⟨hoffers, -⟩ := offers_exactly_once Sample.make_config rfl rfl hall
  refine ⟨_, hall, ?_, ?_⟩
  · have hnews : Sample.scanner.news [] Sample.refused.events = [{ eventId := 5 }] := by
      decide +kernel
    rw [(hoffers [] Sample.refused ⟨_, rfl⟩).1, hnews]
    rfl
  · have hnews : Sample.scanner.news [Sample.refused] Sample.events =
        [{ eventId := 6 }, { eventId := 5 }] := by
      unfold news
      rw [Sample.covered_refused]
      decide +kernel
    rw [(hoffers [Sample.refused] _ ⟨[], rfl⟩).1]
    show (if Sample.scanner.news [Sample.refused] Sample.events = [] then []
      else [capped Sample.config.cap (Sample.scanner.news [Sample.refused] Sample.events)]) = _
    rw [hnews]
    rfl

end Scanner
end LogWatch
