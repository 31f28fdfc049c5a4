import Mathlib.Data.List.Perm.Basic
import Mathlib.Logic.Function.Basic
import Mathlib.Logic.Function.Iterate
import TorrentQuery.Proofs.Field.Denotation

namespace TorrentQuery.Registry

inductive Job where
  | lookup (name : String)
  | register (f : Field)

/-- How far an actor has come. -/
inductive Stage where
  | looking (name : String)
  | missed (name : String)
  | entering (f : Field)
  | done (answer : Except QueryError (Option Field))

namespace Job

def name : Job → String
  | .lookup name => name
  | .register f => f.name

def start : Job → Stage
  | .lookup name => .looking name
  | .register f => .entering f

end Job

namespace Stage

def look (r : Registry) (name : String) : Stage :=
  match r.get? name with
  | some f => .done (.ok (some f))
  | none => .missed name

def ask (r : Registry) (name : String) : Stage :=
  match r.generate name with
  | .error e => .done (.error e)
  | .ok none => .done (.ok none)
  | .ok (some f) => .entering f

def step (r : Registry) : Stage → Registry × Stage
  | .looking name => (r, look r name)
  | .missed name => (r, ask r name)
  | .entering f => (r.insert f, .done (.ok (some (r.entered f))))
  | .done answer => (r, .done answer)

def answer? : Stage → Option (Except QueryError (Option Field))
  | .done answer => some answer
  | _ => none

def left : Stage → Nat
  | .looking _ => 3
  | .missed _ => 2
  | .entering _ => 1
  | .done _ => 0

end Stage

theorem Job.left_start (job : Job) : job.start.left ≤ 3 := by
  cases job with
  | lookup name => exact Nat.le_refl 3
  | register f => exact Nat.le_add_left 1 2

/-- A registry and the actors that share it. -/
structure Shared (ι : Type) where
  registry : Registry
  stage : ι → Stage

namespace Shared

variable {ι : Type}

def start (r : Registry) (jobs : ι → Job) : Shared ι := ⟨r, fun i => (jobs i).start⟩

def answer? (s : Shared ι) (i : ι) : Option (Except QueryError (Option Field)) :=
  (s.stage i).answer?

def Complete (s : Shared ι) : Prop := ∀ i, (s.answer? i).isSome

variable [DecidableEq ι]

def step (s : Shared ι) (i : ι) : Shared ι where
  registry := ((s.stage i).step s.registry).1
  stage := Function.update s.stage i ((s.stage i).step s.registry).2

def run (s : Shared ι) (schedule : List ι) : Shared ι := schedule.foldl step s

def after (r : Registry) (jobs : ι → Job) (schedule : List ι) : Shared ι :=
  (start r jobs).run schedule

end Shared

variable {r r₀ : Registry} {name : String}

/-- An actor whom nobody interrupts does what a lookup does. -/
theorem iterate_step_looking (r : Registry) (name : String) :
    (fun p : Registry × Stage => p.2.step p.1)^[3] (r, .looking name) =
      (((lookup name).run.run r).2, .done ((lookup name).run.run r).1) := by
  have hread {β : Type} (f : Registry → Lookup β) : (get >>= f).run.run r = (f r).run.run r := rfl
  show ((Stage.look r name).step r).2.step ((Stage.look r name).step r).1 = _
  unfold lookup Stage.look
  rw [hread]
  cases hget : r.get? name with
  | some f => rfl
  | none =>
    show (Stage.ask r name).step r = _
    unfold Stage.ask
    cases hgen : r.generate name with
    | error e => rfl
    | ok made =>
      cases made with
      | none => rfl
      | some f => rfl

/-- The second registry has the entries of the first where they were, and maybe more after them. -/
structure Extends (r r' : Registry) : Prop where
  generators : r'.generators = r.generators
  fields : r.fields <+: r'.fields

theorem Extends.refl (r : Registry) : r.Extends r := ⟨rfl, List.prefix_refl _⟩

theorem Extends.trans {r r' r'' : Registry} (h : r.Extends r') (h' : r'.Extends r'') :
    r.Extends r'' :=
  ⟨h'.generators.trans h.generators, h.fields.trans h'.fields⟩

theorem extends_insert (r : Registry) (f : Field) : r.Extends (r.insert f) := by
  unfold insert
  split
  · exact .refl r
  · exact ⟨rfl, List.prefix_append _ _⟩

theorem Extends.get? {r' : Registry} {f : Field} (h : r.Extends r')
    (hget : r.get? name = some f) : r'.get? name = some f := by
  obtain ⟨more, hmore⟩ := h.fields
  rw [Registry.get?, ← hmore, List.find?_append, show r.fields.find? _ = some f from hget]
  rfl

theorem Extends.generate {r' : Registry} (h : r.Extends r') : r'.generate name = r.generate name := by
  rw [Registry.generate, h.generators, Registry.generate]

theorem denotes_of_get? {f : Field} (h : r.get? name = some f) : r.denotes name = .ok (some f) := by
  rw [denotes, h]

theorem denotes_of_get?_none (h : r.get? name = none) : r.denotes name = r.generate name := by
  rw [denotes, h]

theorem get?_insert_self (r : Registry) (f : Field) :
    (r.insert f).get? f.name = some (r.entered f) := by
  rw [get?_insert, if_pos rfl, entered]
  cases r.get? f.name <;> rfl

/-- Where names are distinct, an entry is what is found under its name. -/
theorem get?_of_mem (hnames : r.names.Nodup) {f : Field} (hf : f ∈ r.fields) :
    r.get? f.name = some f := by
  cases hget : r.get? f.name with
  | none => exact absurd (List.find?_eq_none.1 hget f hf) (by simp)
  | some g =>
    exact congrArg some (List.inj_on_of_nodup_map hnames (List.mem_of_find?_eq_some hget) hf
      (name_of_get? hget))

theorem nodup_names_insert (hnames : r.names.Nodup) (f : Field) : (r.insert f).names.Nodup := by
  unfold insert
  split
  · exact hnames
  · next hget =>
    have hnew : f.name ∉ r.names := by
      intro hf
      obtain ⟨g, hg, hname⟩ := List.mem_map.1 hf
      exact absurd (List.find?_eq_none.1 hget g hg) (by simpa using hname)
    simpa [names, List.nodup_append] using ⟨hnames, fun g hg h => hnew (List.mem_map.2 ⟨g, hg, h⟩)⟩

theorem mem_fields_insert {f g : Field} (h : g ∈ (r.insert f).fields) : g ∈ r.fields ∨ g = f := by
  unfold insert at h
  split at h
  · exact .inl h
  · simpa using h

/-- Only entering changes the registry. -/
theorem Stage.step_registry (r : Registry) (stage : Stage) :
    (stage.step r).1 = r ∨ ∃ f, stage = .entering f ∧ (stage.step r).1 = r.insert f := by
  cases stage with
  | looking name => exact .inl rfl
  | missed name => exact .inl rfl
  | entering f => exact .inr ⟨f, rfl, rfl⟩
  | done answer => exact .inl rfl

theorem Stage.extends_step (r : Registry) (stage : Stage) : r.Extends (stage.step r).1 := by
  obtain h | ⟨f, -, h⟩ := stage.step_registry r
  · rw [h]
    exact .refl r
  · rw [h]
    exact extends_insert r f

theorem Stage.left_step (r : Registry) (stage : Stage) :
    (stage.step r).2.left ≤ stage.left - 1 := by
  cases stage with
  | looking name =>
    show (look r name).left ≤ 2
    unfold look
    split <;> simp [left]
  | missed name =>
    show (ask r name).left ≤ 1
    unfold ask
    split <;> simp [left]
  | entering f => exact Nat.le_refl 0
  | done answer => exact Nat.le_refl 0

theorem Stage.isSome_answer? {stage : Stage} (h : stage.left = 0) : stage.answer?.isSome := by
  cases stage with
  | done answer => rfl
  | looking name => cases h
  | missed name => cases h
  | entering f => cases h

theorem Stage.eq_done {stage : Stage} {answer : Except QueryError (Option Field)}
    (h : stage.answer? = some answer) : stage = .done answer := by
  cases stage with
  | done a => exact congrArg done (Option.some.inj h)
  | looking name => cases h
  | missed name => cases h
  | entering f => cases h

/-- How far a job may have come in a registry that has grown from the first one. -/
inductive Reached (r₀ r : Registry) : Job → Stage → Prop
  | looking (name : String) : Reached r₀ r (.lookup name) (.looking name)
  | missed {name : String} : r₀.get? name = none → Reached r₀ r (.lookup name) (.missed name)
  | making {name : String} {f : Field} :
    r₀.get? name = none → r₀.generate name = .ok (some f) →
    Reached r₀ r (.lookup name) (.entering f)
  | found {name : String} {f : Field} :
    r.get? name = some f → Reached r₀ r (.lookup name) (.done (.ok (some f)))
  | nothing {name : String} :
    r₀.denotes name = .ok none → Reached r₀ r (.lookup name) (.done (.ok none))
  | failed {name : String} {e : QueryError} :
    r₀.denotes name = .error e → Reached r₀ r (.lookup name) (.done (.error e))
  | registering (f : Field) : Reached r₀ r (.register f) (.entering f)
  | registered {f g : Field} :
    r.get? f.name = some g → Reached r₀ r (.register f) (.done (.ok (some g)))

namespace Reached

variable {job : Job} {stage : Stage}

theorem start (r : Registry) (job : Job) : Reached r r job job.start := by
  cases job with
  | lookup name => exact .looking name
  | register f => exact .registering f

/-- Steps of others leave an actor where it was. -/
theorem mono {r' : Registry} (h : Reached r₀ r job stage) (hgrows : r.Extends r') :
    Reached r₀ r' job stage := by
  cases h with
  | looking name => exact .looking name
  | missed hmiss => exact .missed hmiss
  | making hmiss hmade => exact .making hmiss hmade
  | found hget => exact .found (hgrows.get? hget)
  | nothing hdenotes => exact .nothing hdenotes
  | failed hdenotes => exact .failed hdenotes
  | registering f => exact .registering f
  | registered hget => exact .registered (hgrows.get? hget)

theorem name_eq (hr : r₀.Faithful) {f : Field} (h : Reached r₀ r job (.entering f)) :
    f.name = job.name := by
  cases h with
  | making _ hmade => exact name_of_generate hr hmade
  | registering => rfl

theorem step (hr : r₀.Faithful) (hgrown : r₀.Extends r) (h : Reached r₀ r job stage) :
    Reached r₀ (stage.step r).1 job (stage.step r).2 := by
  cases h with
  | looking name =>
    show Reached r₀ r (.lookup name) (Stage.look r name)
    unfold Stage.look
    split
    · next hget => exact .found hget
    · next hget =>
      apply Reached.missed
      by_contra hfound
      obtain ⟨f, hf⟩ := Option.ne_none_iff_exists'.1 hfound
      rw [hgrown.get? hf] at hget
      cases hget
  | @missed name hmiss =>
    have hgenerate : r₀.generate name = r.generate name := hgrown.generate.symm
    have hdenotes : r₀.denotes name = r.generate name :=
      (denotes_of_get?_none hmiss).trans hgenerate
    show Reached r₀ r (.lookup name) (Stage.ask r name)
    unfold Stage.ask
    split
    · next hgen => exact .failed (hdenotes.trans hgen)
    · next hgen => exact .nothing (hdenotes.trans hgen)
    · next hgen => exact .making hmiss (hgenerate.trans hgen)
  | @making name f hmiss hmade =>
    apply Reached.found
    rw [← name_of_generate hr hmade]
    exact get?_insert_self r f
  | found hget => exact .found hget
  | nothing hdenotes => exact .nothing hdenotes
  | failed hdenotes => exact .failed hdenotes
  | registering f => exact .registered (get?_insert_self r f)
  | registered hget => exact .registered hget

end Reached

namespace Shared

variable {ι : Type} {jobs : ι → Job} {s : Shared ι}

/-- What every run keeps. -/
structure Sound (r₀ : Registry) (jobs : ι → Job) (s : Shared ι) : Prop where
  grown : r₀.Extends s.registry
  nodup : s.registry.names.Nodup
  reached : ∀ i, Reached r₀ s.registry (jobs i) (s.stage i)
  /-- Entries are old, or the names that someone asked for or registered. -/
  source : ∀ f ∈ s.registry.fields, f ∈ r₀.fields ∨ ∃ i, (jobs i).name = f.name

theorem sound_start (hnames : r₀.names.Nodup) (jobs : ι → Job) : Sound r₀ jobs (start r₀ jobs) where
  grown := .refl r₀
  nodup := hnames
  reached i := .start r₀ (jobs i)
  source _ hf := .inl hf

/-- Who answers with a field answers with the entry of its name. -/
theorem Sound.get?_of_answer (h : Sound r₀ jobs s) {i : ι} {f : Field}
    (hanswer : s.answer? i = some (.ok (some f))) : s.registry.get? (jobs i).name = some f := by
  have hreached := h.reached i
  rw [Stage.eq_done hanswer] at hreached
  generalize jobs i = job at hreached ⊢
  cases hreached with
  | found hget => exact hget
  | registered hget => exact hget

/-- What every run of lookups keeps. -/
structure Steady (r₀ : Registry) (names : ι → String) (s : Shared ι) : Prop
    extends Sound r₀ (fun i => .lookup (names i)) s where
  denotes : ∀ name, s.registry.denotes name = r₀.denotes name

namespace Steady

variable {names : ι → String} {s' : Shared ι}

/-- Every lookup answers what its name stood for at the beginning. -/
theorem answer_eq (h : Steady r₀ names s) {i : ι} {answer : Except QueryError (Option Field)}
    (hanswer : s.answer? i = some answer) : answer = r₀.denotes (names i) := by
  have hreached := h.reached i
  rw [Stage.eq_done hanswer] at hreached
  cases hreached with
  | found hget =>
    rw [← h.denotes]
    exact (denotes_of_get? hget).symm
  | nothing hdenotes => exact hdenotes.symm
  | failed hdenotes => exact hdenotes.symm

/-- Where all lookups have answered, all entries are there that any run could have made. -/
theorem mem_fields (h : Steady r₀ names s) (h' : Steady r₀ names s') (hcomplete : s'.Complete)
    {f : Field} (hf : f ∈ s.registry.fields) : f ∈ s'.registry.fields := by
  obtain hold | ⟨i, hi⟩ := h.source f hf
  · exact h'.grown.fields.subset hold
  · have hdenotes : r₀.denotes (names i) = .ok (some f) := by
      rw [show names i = f.name from hi, ← h.denotes]
      exact denotes_of_get? (get?_of_mem h.nodup hf)
    obtain ⟨answer, hanswer⟩ := Option.isSome_iff_exists.1 (hcomplete i)
    rw [h'.answer_eq hanswer, hdenotes] at hanswer
    exact List.mem_of_find?_eq_some (h'.get?_of_answer hanswer)

theorem perm (h : Steady r₀ names s) (h' : Steady r₀ names s') (hcomplete : s.Complete)
    (hcomplete' : s'.Complete) : s.registry.fields.Perm s'.registry.fields :=
  (List.perm_ext_iff_of_nodup (.of_map _ h.nodup) (.of_map _ h'.nodup)).2 fun _ =>
    ⟨h.mem_fields h' hcomplete', h'.mem_fields h hcomplete⟩

end Steady

variable [DecidableEq ι]

@[simp] theorem run_nil (s : Shared ι) : s.run [] = s := rfl

@[simp] theorem run_cons (s : Shared ι) (i : ι) (schedule : List ι) :
    s.run (i :: schedule) = (s.step i).run schedule := rfl

@[simp] theorem run_append (s : Shared ι) (schedule later : List ι) :
    s.run (schedule ++ later) = (s.run schedule).run later := List.foldl_append

theorem extends_run (s : Shared ι) (schedule : List ι) :
    s.registry.Extends (s.run schedule).registry := by
  induction schedule generalizing s with
  | nil => exact .refl _
  | cons i schedule ih => exact ((s.stage i).extends_step s.registry).trans (ih (s.step i))

/-- An answer is kept. -/
theorem answer?_run {i : ι} {answer : Except QueryError (Option Field)}
    (h : s.answer? i = some answer) (schedule : List ι) :
    (s.run schedule).answer? i = some answer := by
  induction schedule generalizing s with
  | nil => exact h
  | cons j schedule ih =>
    apply ih
    by_cases hij : i = j
    · subst hij
      simp only [answer?, step, Function.update_self, Stage.eq_done h]
      rfl
    · simpa only [answer?, step, Function.update_of_ne hij] using h

theorem left_run (s : Shared ι) (i : ι) (schedule : List ι) :
    ((s.run schedule).stage i).left ≤ (s.stage i).left - schedule.count i := by
  induction schedule generalizing s with
  | nil => exact Nat.le_refl _
  | cons j schedule ih =>
    have hlater := ih (s.step j)
    rw [run_cons]
    by_cases hij : i = j
    · subst hij
      have hstep := (s.stage i).left_step s.registry
      rw [show (s.step i).stage i = ((s.stage i).step s.registry).2 from
        Function.update_self ..] at hlater
      rw [List.count_cons_self]
      omega
    · rw [show (s.step j).stage i = s.stage i from Function.update_of_ne hij ..] at hlater
      rw [List.count_cons_of_ne (Ne.symm hij)]
      exact hlater

theorem Sound.step (hr : r₀.Faithful) (h : Sound r₀ jobs s) (i : ι) :
    Sound r₀ jobs (s.step i) where
  grown := h.grown.trans ((s.stage i).extends_step s.registry)
  nodup := by
    show ((s.stage i).step s.registry).1.names.Nodup
    obtain hkept | ⟨f, -, hinsert⟩ := (s.stage i).step_registry s.registry
    · rw [hkept]
      exact h.nodup
    · rw [hinsert]
      exact nodup_names_insert h.nodup f
  reached j := by
    by_cases hji : j = i
    · subst hji
      rw [show (s.step j).stage j = ((s.stage j).step s.registry).2 from Function.update_self ..]
      exact (h.reached j).step hr h.grown
    · rw [show (s.step i).stage j = s.stage j from Function.update_of_ne hji ..]
      exact (h.reached j).mono ((s.stage i).extends_step s.registry)
  source f hf := by
    change f ∈ ((s.stage i).step s.registry).1.fields at hf
    obtain hkept | ⟨g, hstage, hinsert⟩ := (s.stage i).step_registry s.registry
    · rw [hkept] at hf
      exact h.source f hf
    · rw [hinsert] at hf
      obtain hold | rfl := mem_fields_insert hf
      · exact h.source f hold
      · have hreached := h.reached i
        rw [hstage] at hreached
        exact .inr ⟨i, (hreached.name_eq hr).symm⟩

theorem Sound.run (hr : r₀.Faithful) (h : Sound r₀ jobs s) (schedule : List ι) :
    Sound r₀ jobs (s.run schedule) := by
  induction schedule generalizing s with
  | nil => exact h
  | cons i schedule ih => exact ih (h.step hr i)

/-- Who ends without a field has entered nothing. -/
theorem registry_step_of_no_field {i : ι} {later : List ι}
    (h : ∀ f, ((s.step i).run later).answer? i ≠ some (.ok (some f))) :
    (s.step i).registry = s.registry := by
  obtain hkept | ⟨f, hstage, -⟩ := (s.stage i).step_registry s.registry
  · exact hkept
  · have hanswer : (s.step i).answer? i = some (.ok (some (s.registry.entered f))) := by
      simp only [answer?, step, Function.update_self, hstage]
      rfl
    exact absurd (answer?_run hanswer later) (h _)

theorem Steady.step {names : ι → String} (hr : r₀.Faithful) (h : Steady r₀ names s) (i : ι) :
    Steady r₀ names (s.step i) where
  toSound := h.toSound.step hr i
  denotes name := by
    show ((s.stage i).step s.registry).1.denotes name = _
    obtain hkept | ⟨f, hstage, hinsert⟩ := (s.stage i).step_registry s.registry
    · rw [hkept]
      exact h.denotes name
    · have hreached := h.reached i
      rw [hstage] at hreached
      cases hreached with
      | making _ hmade =>
        have hgen : s.registry.generate f.name = .ok (some f) := by
          rw [h.grown.generate, name_of_generate hr hmade]
          exact hmade
        rw [hinsert, denotes_insert hgen]
        exact h.denotes name

theorem Steady.run {names : ι → String} (hr : r₀.Faithful) (h : Steady r₀ names s)
    (schedule : List ι) : Steady r₀ names (s.run schedule) := by
  induction schedule generalizing s with
  | nil => exact h
  | cons i schedule ih => exact ih (h.step hr i)

/-- Entries stay as they are and where they are, no name gets two, whoever asks for one name and
gets a field gets the same one, and who gets none adds none. Where all jobs are lookups, the order
of their steps matters neither to what they answer nor to what is entered in the end. -/
theorem entries_in_every_order {r : Registry} (hr : r.Faithful) (hnames : r.names.Nodup)
    (jobs : ι → Job) :
    (∀ schedule later : List ι,
      (after r jobs schedule).registry.fields <+:
        (after r jobs (schedule ++ later)).registry.fields) ∧
    (∀ schedule : List ι, (after r jobs schedule).registry.names.Nodup) ∧
    (∀ (schedule : List ι) (i j : ι) (f g : Field), (jobs i).name = (jobs j).name →
      (after r jobs schedule).answer? i = some (.ok (some f)) →
      (after r jobs schedule).answer? j = some (.ok (some g)) → f = g) ∧
    (∀ (schedule later : List ι) (i : ι),
      (∀ f, (after r jobs (schedule ++ i :: later)).answer? i ≠ some (.ok (some f))) →
      (after r jobs (schedule ++ [i])).registry = (after r jobs schedule).registry) ∧
    (∀ (schedule : List ι) (i : ι), 3 ≤ schedule.count i →
      ((after r jobs schedule).answer? i).isSome) ∧
    (∀ names : ι → String, jobs = (fun i => .lookup (names i)) →
      (∀ (schedule : List ι) (i : ι) (answer : Except QueryError (Option Field)),
        (after r jobs schedule).answer? i = some answer →
        answer = ((lookup (names i)).run.run r).1) ∧
      ∀ schedule other : List ι, (after r jobs schedule).Complete → (after r jobs other).Complete →
        (after r jobs schedule).registry.fields.Perm (after r jobs other).registry.fields) := by
  have hsound (schedule : List ι) : Sound r jobs (after r jobs schedule) :=
    (sound_start hnames jobs).run hr schedule
  refine ⟨?kept, ?distinct, ?agreed, ?idle, ?answered, ?lookups⟩
  case kept =>
    intro schedule later
    rw [after, after, run_append]
    exact (extends_run _ later).fields
  case distinct => exact fun schedule => (hsound schedule).nodup
  case agreed =>
    intro schedule i j f g hname hi hj
    have hf := (hsound schedule).get?_of_answer hi
    rw [hname, (hsound schedule).get?_of_answer hj] at hf
    exact (Option.some.inj hf).symm
  case idle =>
    intro schedule later i h
    simp only [after, run_append, run_cons, run_nil] at h ⊢
    exact registry_step_of_no_field h
  case answered =>
    intro schedule i hcount
    apply Stage.isSome_answer?
    have hleft := left_run (start r jobs) i schedule
    have hstart : ((start r jobs).stage i).left ≤ 3 := (jobs i).left_start
    rw [after]
    omega
  case lookups =>
    rintro names rfl
    have hsteady (schedule : List ι) : Steady r names (after r _ schedule) :=
      Steady.run hr ⟨sound_start hnames _, fun _ => rfl⟩ schedule
    constructor
    · intro schedule i answer hanswer
      rw [run_lookup hr]
      exact (hsteady schedule).answer_eq hanswer
    · exact fun schedule other => (hsteady schedule).perm (hsteady other)

/-- Two lookups of one name both miss and both make the field, and a registration of the name comes
before either enters it. Without the registration, both orders end with the same field. -/
theorem entries_in_every_order_race :
    let mine : Field := ⟨"custom_1", "mine", .str, .pattern, none, 1, []⟩
    let jobs : Fin 4 → Job :=
      [.lookup "custom_1", .register mine, .lookup "custom_1", .lookup "kind_200"].get
    let raced := after Catalogue.registry jobs [0, 2, 0, 2, 3, 1, 2, 3, 0]
    let lookups : Bool → Job := fun _ => .lookup "custom_1"
    let between := after Catalogue.registry lookups [true, false, true, false, true, false]
    let apart := after Catalogue.registry lookups [false, false, false, true]
    (raced.registry.names.Nodup ∧ raced.answer? 0 = some (.ok (some mine)) ∧
      raced.answer? 2 = raced.answer? 0 ∧ raced.registry.fields = Catalogue.coreFields ++ [mine] ∧
      (raced.answer? 3).map (·.toOption) = some none) ∧
    between.registry.fields.Perm apart.registry.fields ∧
      between.registry.fields.length = Catalogue.coreFields.length + 1 := by
  intro mine jobs raced lookups between apart
  have hnames : Catalogue.registry.names.Nodup := by decide
  obtain ⟨-, hdistinct, -⟩ := entries_in_every_order Catalogue.registry_faithful hnames jobs
  obtain ⟨-, -, -, -, -, hlookups⟩ :=
    entries_in_every_order Catalogue.registry_faithful hnames lookups
  have hbetween : between.Complete := by
    unfold Complete
    decide
  have hapart : apart.Complete := by
    unfold Complete
    decide
  have hfirst : raced.answer? 0 = some (.ok (some mine)) := rfl
  have hsecond : raced.answer? 2 = some (.ok (some mine)) := rfl
  exact ⟨⟨hdistinct _, hfirst, hsecond.trans hfirst.symm, rfl, rfl⟩,
    (hlookups _ rfl).2 _ _ hbetween hapart, rfl⟩

end Shared

end TorrentQuery.Registry
