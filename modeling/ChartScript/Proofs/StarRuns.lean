import ChartScript.Proofs.Metering

/-!
# Runs through the star namespace

Sending the calls of a program through the star namespace changes the names by which the functions of
the host are found, and nothing else. The whole point is a simulation in lockstep. Two environments
are compared, one without the star namespace and one with it (`ChartScript.Env.Mirrors`): but for the
name `star` they are the same, and what the host offers is found in both, in the second one also behind
`star`. A computation in the first and its counterpart in the second give the same value and leave
mirrored environments (`ChartScript.RunsAlike`). If they fail they fail with the same fault, up to the
callee that a failed call reports, which is the one name that a script can see change. Nothing of this
is said where the first computation strays, since a template can show all bindings.

The relation is a congruence, so only names and calls have to be looked at. A name means the same as
long as it does not go through `star` itself. A call that is sent through `star` finds the same
function, as long as it goes to a function of the host (`ChartScript.hostCallees`): a callee that stands
for no function gives a value that holds the callee, and such a value would differ.
-/

namespace ChartScript

open Syntax

/-! ### Results up to a callee -/

/-- A fault without the callee that it names. -/
def Fault.nameless : Fault → Fault
  | .callFailed _ => .callFailed ""
  | fault => fault

/-- The same fault, up to the callee of a failed call. -/
def Fault.SameKind (fault fault' : Fault) : Prop := fault.nameless = fault'.nameless

/-- The same value, or faults of the same kind. -/
inductive ResultsAlike {α : Type} : Except Fault α → Except Fault α → Prop
  /-- The same value. -/
  | ok (a : α) : ResultsAlike (.ok a) (.ok a)
  /-- Faults of the same kind. -/
  | error {fault fault' : Fault} (h : fault.SameKind fault') :
    ResultsAlike (.error fault) (.error fault')

theorem ResultsAlike.refl {α : Type} (result : Except Fault α) : ResultsAlike result result := by
  cases result with
  | ok a => exact .ok a
  | error fault => exact .error rfl

/-- Faults that are renamed after two callees are alike. -/
theorem ResultsAlike.callFault {α : Type} (callee callee' : String) (result : Except Fault α) :
    ResultsAlike (result.mapError (callFault callee)) (result.mapError (callFault callee')) := by
  cases result with
  | ok a => exact .ok a
  | error fault => cases fault <;> exact .error rfl

/-! ### Environments without a name -/

section Entries

variable {α : Type} {name key : String} (entries : List (String × α))

/-- A name that is left is found as before. -/
theorem find?_filter_ne (h : key ≠ name) :
    Datum.find? key (entries.filter fun entry => entry.1 != name) = Datum.find? key entries := by
  induction entries with
  | nil => rfl
  | cons entry entries ih =>
    rw [List.filter_cons, Datum.find?_cons, ← ih]
    rcases eq_or_ne entry.1 name with hname | hname
    · rw [if_neg (by simp [hname]), if_neg (by rw [hname]; exact h.symm)]
    · rw [if_pos (by simpa using hname), Datum.find?_cons]

/-- Binding another name and leaving a name out go together. -/
theorem bind_filter_ne (h : key ≠ name) (v : α) :
    (Datum.bind key v entries).filter (fun entry => entry.1 != name) =
      Datum.bind key v (entries.filter fun entry => entry.1 != name) := by
  induction entries with
  | nil => simp [Datum.bind, h]
  | cons entry entries ih =>
    rw [Datum.bind]
    rcases eq_or_ne entry.1 key with hkey | hkey
    · have hname : entry.1 ≠ name := by rw [hkey]; exact h
      simp [Datum.bind, hkey, h]
    · rw [if_neg hkey, List.filter_cons, List.filter_cons, ih]
      split
      · rw [Datum.bind, if_neg hkey]
      · rfl

/-- What a name is bound to does not matter where the name is left out. -/
theorem bind_filter_self (v : α) :
    (Datum.bind name v entries).filter (fun entry => entry.1 != name) =
      entries.filter fun entry => entry.1 != name := by
  induction entries with
  | nil => simp [Datum.bind]
  | cons entry entries ih =>
    rw [Datum.bind]
    rcases eq_or_ne entry.1 name with hname | hname
    · simp [hname]
    · rw [if_neg hname, List.filter_cons, List.filter_cons, ih]

end Entries

/-- An environment with a name left out. -/
def Env.without (name : String) (env : Env) : Env :=
  { env with bindings := env.bindings.filter fun entry => entry.1 != name }

/-! ### Mirrored environments -/

/-- The names that have to stay bound to what they are bound to. -/
def keptNames : List String := ["plot", "ta", "request", "input", "star"]

/-- What the host offers by a bare name and behind `star`, and is called there. -/
def hostNames : List (String × Value) :=
  [("plot", .function .plot), ("ta", .space .ta), ("request", .space .request),
    ("input", .space .input)]

/-- **The second environment is the first with the star namespace.** -/
structure Env.Mirrors (env env' : Env) : Prop where
  /-- But for the name `star` they are the same. -/
  same : env'.without "star" = env
  /-- What the host offers is bound to the names of the host. -/
  host : ∀ entry ∈ hostNames, env.get? entry.1 = some entry.2
  /-- And it is found in the star namespace. -/
  star : ∃ entries, env'.get? "star" = some (.dict entries) ∧
    ∀ entry ∈ hostNames, Datum.find? entry.1 entries = some entry.2

section Mirrors

variable {env env' : Env} (h : env.Mirrors env')

include h

/-- Every other name is bound to the same. -/
theorem Env.Mirrors.get? {name : String} (hname : name ≠ "star") : env'.get? name = env.get? name := by
  rw [← h.same]
  exact (find?_filter_ne env'.bindings hname).symm

theorem Env.Mirrors.engine : env'.engine = env.engine := by
  rw [← h.same]
  rfl

theorem Env.Mirrors.methods : env'.methods = env.methods := by
  rw [← h.same]
  rfl

theorem Env.Mirrors.budget : env'.budget = env.budget := by
  rw [← h.same]
  rfl

theorem Env.Mirrors.opCount : env'.opCount = env.opCount := by
  rw [← h.same]
  rfl

/-- Records of the first environment are records of the second. -/
theorem Env.Mirrors.withRecords_left : env'.withRecords env = env' := by
  rw [← h.same]
  rfl

/-- New records leave the environments mirrored. -/
theorem Env.Mirrors.withRecords (other : Env) :
    (env.withRecords other).Mirrors (env'.withRecords other) :=
  ⟨congrArg (·.withRecords other) h.same, h.host, h.star⟩

/-- Counting leaves the environments mirrored. -/
theorem Env.Mirrors.count :
    Env.Mirrors { env with opCount := env.opCount + 1 } { env' with opCount := env'.opCount + 1 } := by
  refine ⟨?_, h.host, h.star⟩
  rw [h.opCount, ← h.same]
  rfl

/-- So does binding a name that is neither `star` nor a name of the host. -/
theorem Env.Mirrors.bind {name : String} (hname : name ∉ keptNames) (v : Value) :
    (env.bind name v).Mirrors (env'.bind name v) := by
  have hstar : name ≠ "star" := by
    rintro rfl
    exact hname (by decide)
  have hhost : ∀ entry ∈ hostNames, entry.1 ≠ name := by
    rintro entry hentry rfl
    have hall : ∀ entry ∈ hostNames, entry.1 ∈ keptNames := by simp [hostNames, keptNames]
    exact hname (hall entry hentry)
  refine ⟨?_, ?_, ?_⟩
  · rw [← h.same]
    exact congrArg (fun bindings => { env' with bindings }) (bind_filter_ne env'.bindings hstar v)
  · intro entry hentry
    rw [Env.get?_bind_of_ne (hhost entry hentry)]
    exact h.host entry hentry
  · rw [Env.get?_bind_of_ne hstar.symm]
    exact h.star

end Mirrors

/-! ### Names -/

/-- Following a path from a dictionary: its first segment is a name in the dictionary. -/
theorem follow?_dict (e : Engine) (entries : List (String × Value)) (segment : String)
    (rest : List String) :
    (Value.dict entries).follow? e (segment :: rest) =
      if isHidden segment then none
      else (Datum.find? segment entries).bind (Value.follow? e rest) := rfl

/-- A name means the same in two environments in which its first segment is bound to the same. -/
theorem Env.resolve?_congr {env env' : Env} (hengine : env'.engine = env.engine) {path : String}
    (h : ∀ segment rest, Text.pathSegments path = segment :: rest → isHidden segment = false →
      env'.get? segment = env.get? segment) : env'.resolve? path = env.resolve? path := by
  rw [Env.resolve?, Env.resolve?, Value.resolve?, Value.resolve?, hengine]
  rcases hsegments : Text.pathSegments path with _ | ⟨segment, rest⟩
  · rw [Text.pathSegments, List.map_eq_nil_iff] at hsegments
    exact absurd hsegments (Text.split_ne_nil _ _)
  · rw [follow?_dict, follow?_dict]
    split
    · rfl
    · rename_i hshown
      have hget := h segment rest hsegments (Bool.eq_false_iff.2 hshown)
      exact congrArg (·.bind (Value.follow? env.engine rest)) hget

/-- **A name that does not go through `star` means the same.** -/
theorem Env.Mirrors.resolve? {env env' : Env} (h : env.Mirrors env') {path : String}
    (hpath : (Text.pathSegments path).head? ≠ some "star") :
    env'.resolve? path = env.resolve? path := by
  refine Env.resolve?_congr h.engine fun segment rest hsegments _ => h.get? ?_
  rintro rfl
  exact hpath (by rw [hsegments, List.head?_cons])

/-- The segments of a name behind `star`. -/
theorem pathSegments_star (path : String) :
    Text.pathSegments ("star." ++ path) = "star" :: Text.pathSegments path := by
  have hlist : ("star." ++ path).toList = 's' :: 't' :: 'a' :: 'r' :: '.' :: path.toList := by
    rw [String.toList_append]
    rfl
  rw [Text.pathSegments, hlist]
  simp [Text.split]
  rfl

/-- **What the host offers is found behind `star` as well.** -/
theorem Env.Mirrors.resolve?_star {env env' : Env} (h : env.Mirrors env') {path segment : String}
    {rest : List String} (hpath : Text.pathSegments path = segment :: rest)
    (hsegment : segment ∈ hostNames.map Prod.fst) :
    env'.resolve? ("star." ++ path) = env.resolve? path := by
  obtain ⟨entry, hentry, rfl⟩ := List.mem_map.1 hsegment
  obtain ⟨entries, hstar, hentries⟩ := h.star
  have hget : Datum.find? entry.1 env.bindings = some entry.2 := h.host entry hentry
  have hget' : Datum.find? "star" env'.bindings = some (.dict entries) := hstar
  rw [Env.resolve?, Env.resolve?, Value.resolve?, Value.resolve?, pathSegments_star, hpath, h.engine,
    follow?_dict, follow?_dict, hget, hget', if_neg (by decide), Option.bind_some, follow?_dict,
    hentries entry hentry]

/-- The functions of the host among the callees that are sent through `star`. -/
def hostCallees : List String :=
  ["plot", "input", "request.security"] ++ inputNames.map ("input." ++ ·) ++
    TaFunction.table.map ("ta." ++ ·.1)

/-- Whether a callee starts at a name that the host offers, is sent through `star`, and stands for a
function. -/
def standsForHost (e : Engine) (callee : String) : Bool :=
  match Text.pathSegments callee with
  | [] => false
  | segment :: rest =>
    starCallee callee == "star." ++ callee && !isHidden segment &&
      match hostNames.lookup segment with
      | none => false
      | some v => ((v.follow? e rest).bind Value.function?).isSome

theorem all_hostCallees (e : Engine) : hostCallees.all (standsForHost e) = true := by rfl

/-- **Behind `star` a function of the host is found that is found without it.** -/
theorem Env.Mirrors.resolve?_hostCallee {env env' : Env} (h : env.Mirrors env') {callee : String}
    (hcallee : callee ∈ hostCallees) :
    env'.resolve? (starCallee callee) = env.resolve? callee ∧
      ∃ f, (env.resolve? callee).bind Value.function? = some f := by
  have hall := List.all_eq_true.1 (all_hostCallees env.engine) callee hcallee
  rw [standsForHost] at hall
  split at hall
  · cases hall
  · rename_i segment rest hpath
    simp only [Bool.and_eq_true, beq_iff_eq] at hall
    obtain ⟨⟨hstar, hshown⟩, hfunction⟩ := hall
    split at hfunction
    · cases hfunction
    · rename_i v hlookup
      obtain ⟨f, hf⟩ := Option.isSome_iff_exists.1 hfunction
      have hentry : (segment, v) ∈ hostNames := by
        obtain ⟨before, behind, hnames, -⟩ := List.lookup_eq_some_iff.1 hlookup
        rw [hnames]
        exact List.mem_append_right _ List.mem_cons_self
      refine ⟨?_, f, ?_⟩
      · rw [hstar]
        exact h.resolve?_star hpath (List.mem_map.2 ⟨_, hentry, rfl⟩)
      · have hget : Datum.find? segment env.bindings = some v := h.host _ hentry
        rw [Env.resolve?, Value.resolve?, hpath, follow?_dict, hget, if_neg (by simpa using hshown)]
        exact hf

/-! ### Runs in lockstep -/

/-- **In mirrored environments two computations do the same**, if the first does not stray. -/
structure RunsAlike {α : Type} (r s : Run α) : Prop where
  /-- Strays are never taken back. -/
  rises : Rises r
  /-- The results are alike and the environments mirrored. -/
  alike : ∀ env env', Env.Mirrors env env' → Run.Stays r env →
    ResultsAlike (r.run env).1 (s.run env').1 ∧ (r.run env).2.Mirrors (s.run env').2

section RunsAlike

variable {α β : Type}

theorem RunsAlike.bind {r s : Run α} {f g : α → Run β} (h : RunsAlike r s)
    (hf : ∀ a, RunsAlike (f a) (g a)) : RunsAlike (r >>= f) (s >>= g) := by
  have hrises := fun a => (hf a).rises
  refine ⟨h.rises.bind hrises, fun env env' hm hstays => ?_⟩
  obtain ⟨hresult, hnext⟩ := h.alike env env' hm (hstays.first h.rises hrises)
  rw [run_bind, run_bind]
  rcases hr : r.run env with ⟨result, next⟩
  rcases hs : s.run env' with ⟨result', next'⟩
  rw [hr, hs] at hresult hnext
  cases hresult with
  | ok a => exact (hf a).alike next next' hnext (hstays.second h.rises hrises hr)
  | error hkind => exact ⟨.error hkind, hnext⟩

/-- Looking at the two environments first. -/
theorem RunsAlike.get {f g : Env → Run β}
    (h : ∀ env env', Env.Mirrors env env' → RunsAlike (f env) (g env')) (hrises : ∀ env, Rises (f env)) :
    RunsAlike (get >>= f) (get >>= g) :=
  ⟨fun env => hrises env env, fun env env' hm hstays => (h env env' hm).alike env env' hm hstays⟩

theorem runsAlike_tick : RunsAlike tick tick := by
  refine ⟨fun env => (run_tick_snd env).symm ▸ Nat.le_refl _, fun env env' hm _ => ?_⟩
  have hcount := hm.count
  rcases hobjects : env.budget.objection? (env.opCount + 1) with _ | fault
  · have hobjects' : env'.budget.objection? (env'.opCount + 1) = none := by
      rwa [hm.budget, hm.opCount]
    rw [run_tick_ok hobjects, run_tick_ok hobjects']
    exact ⟨.ok (), hcount⟩
  · have hobjects' : env'.budget.objection? (env'.opCount + 1) = some fault := by
      rwa [hm.budget, hm.opCount]
    rw [run_tick_error hobjects, run_tick_error hobjects']
    exact ⟨.refl _, hcount⟩

/-- A computation of the host in the second environment, told by the one in the first. -/
theorem Hosted.run_mirror {r : Run α} (h : Hosted r) {env env' : Env} (hm : env.Mirrors env')
    (hstays : Run.Stays r env) :
    (r.run env').1 = (r.run env).1 ∧ (r.run env).2.Mirrors (r.run env').2 := by
  have hrun := h.run_eq env env' ⟨hm.get? (by decide), hm.methods⟩ hstays
  rw [hm.withRecords_left] at hrun
  rw [hrun, h.run_snd env]
  exact ⟨rfl, hm.withRecords _⟩

theorem Hosted.runsAlike {r : Run α} (h : Hosted r) : RunsAlike r r := by
  refine ⟨h.rises, fun env env' hm hstays => ?_⟩
  obtain ⟨hresult, hnext⟩ := h.run_mirror hm hstays
  rw [hresult]
  exact ⟨.refl _, hnext⟩

theorem runsAlike_congruence : Congruence RunsAlike :=
  ⟨fun h hf => h.bind hf, runsAlike_tick, fun h => h.runsAlike⟩

/-- Calling a function under two names. -/
theorem runsAlike_callValue (callee callee' : String) {target : Option Value} {f : Callable}
    (htarget : target.bind Value.function? = some f) (values : List Value) :
    RunsAlike (callValue callee target values) (callValue callee' target values) := by
  have hcall : ∀ callee : String, callValue callee target values =
      (f.call (splitValues values).1 (splitValues values).2).adapt (callFault callee) := by
    intro callee
    rw [callValue, htarget]
  have hhosted := hosted_callable f (splitValues values).1 (splitValues values).2
  rw [hcall, hcall]
  refine ⟨hhosted.rises, fun env env' hm hstays => ?_⟩
  obtain ⟨hresult, hnext⟩ := hhosted.run_mirror hm hstays
  refine ⟨?_, hnext⟩
  show ResultsAlike (((f.call _ _).run env).1.mapError _) (((f.call _ _).run env').1.mapError _)
  rw [hresult]
  exact .callFault _ _ _

end RunsAlike

/-! ### Expressions and statements -/

/-- A name that does not go through `star`. -/
def AvoidsStar (path : String) : Prop := (Text.pathSegments path).head? ≠ some "star"

instance (path : String) : Decidable (AvoidsStar path) := inferInstanceAs (Decidable (_ ≠ _))

/-- **An expression whose meaning does not change** when its calls are sent through `star`: no name in
it goes through `star`, and the calls that are sent there go to functions of the host. -/
structure Node.Redirectable (node : Node) : Prop where
  /-- Names do not go through `star`. The name of a named argument stands for nothing. -/
  names : ∀ name, .identifier name false ∈ node.parts → AvoidsStar name
  /-- Callees do not either. -/
  callees : ∀ callee args, .call callee args ∈ node.parts → AvoidsStar callee
  /-- Calls that are sent through `star` go to functions of the host. -/
  sent : ∀ callee args, .call callee args ∈ node.parts → starCallee callee ≠ callee →
    callee ∈ hostCallees

theorem runsAlike_identifierValue {name : String} {marker : Bool}
    (h : marker = false → AvoidsStar name) :
    RunsAlike (identifierValue name marker) (identifierValue name marker) := by
  refine runsAlike_congruence.identifierValue fun hmarker => .get (fun env env' hm => ?_)
    fun env => (hosted_lookUp env name).rises
  rw [Env.lookUp_congr (hm.resolve? (h hmarker))]
  exact (hosted_lookUp env name).runsAlike

theorem runsAlike_calling {callee : String} (havoids : AvoidsStar callee)
    (hsent : starCallee callee ≠ callee → callee ∈ hostCallees) {values values' : Run (List Value)}
    (hvalues : RunsAlike values values') :
    RunsAlike (calling callee values) (calling (starCallee callee) values') := by
  refine .get (fun env env' hm => ?_)
    fun env => hvalues.rises.bind fun vs => (hosted_callValue _ _ _).rises
  by_cases hsame : starCallee callee = callee
  · rw [hsame, hm.resolve? havoids]
    exact hvalues.bind fun vs => (hosted_callValue _ _ _).runsAlike
  · obtain ⟨htarget, f, hf⟩ := hm.resolve?_hostCallee (hsent hsame)
    rw [htarget]
    exact hvalues.bind fun vs => runsAlike_callValue _ _ hf vs

/-- **Evaluation is the same through the star namespace.** -/
theorem Node.Redirectable.runsAlike {node : Node} (h : node.Redirectable) :
    RunsAlike node.evaluate node.toStar.evaluate := by
  rw [node.toStar_eq_redirected]
  refine runsAlike_congruence.evaluate ⟨?_, ?_⟩
  · rintro name marker hname
    refine runsAlike_identifierValue ?_
    rintro rfl
    exact h.names name hname
  · intro callee args hcall values values' hvalues
    exact runsAlike_calling (h.callees callee args hcall) (h.sent callee args hcall) hvalues

theorem runsAlike_store {a : Assignment} (h : a.isCall = false → a.target ∉ keptNames) (v : Value) :
    RunsAlike (a.store v) (a.store v) :=
  runsAlike_congruence.store fun hcall =>
    ⟨fun _ => Nat.le_refl _, fun _ _ hm _ => ⟨.ok (), hm.bind (h hcall) v⟩⟩

theorem Node.Redirectable.runsAlike_run {a : Assignment} (h : a.expr.Redirectable)
    (htarget : a.isCall = false → a.target ∉ keptNames) :
    RunsAlike a.run { a with expr := a.expr.toStar : Assignment }.run :=
  h.runsAlike.bind fun v => runsAlike_store htarget v

/-! ### Where a run ends -/

/-- Some statements complete, and the next one fails. -/
def Assignment.FailsAt (place : Nat) (assignments : List Assignment) (env : Env) (fault : Fault)
    (final : Env) : Prop :=
  ∃ before a behind reached, assignments = before ++ a :: behind ∧ before.length = place ∧
    (Assignment.runAll before).run env = (.ok (), reached) ∧
      a.run.run reached = (.error fault, final)

/-- Then the whole run fails there. -/
theorem Assignment.FailsAt.run_eq {place : Nat} {assignments : List Assignment} {env final : Env}
    {fault : Fault} (h : Assignment.FailsAt place assignments env fault final) :
    (Assignment.runAll assignments).run env = (.error fault, final) := by
  obtain ⟨before, a, behind, reached, rfl, -, hbefore, ha⟩ := h
  induction before generalizing env with
  | nil =>
    cases hbefore
    exact run_bind_error ha _
  | cons b before ih =>
    rw [Assignment.runAll] at hbefore
    rw [List.cons_append, Assignment.runAll]
    rcases hb : b.run.run env with ⟨fault' | u, next⟩
    · rw [run_bind_error hb] at hbefore
      cases hbefore
    · rw [run_bind_ok hb] at hbefore ⊢
      exact ih hbefore

/-- A further statement in front that completes. -/
theorem Assignment.FailsAt.cons {place : Nat} {assignments : List Assignment} {env next final : Env}
    {fault : Fault} {a : Assignment} (ha : a.run.run env = (.ok (), next))
    (h : Assignment.FailsAt place assignments next fault final) :
    Assignment.FailsAt (place + 1) (a :: assignments) env fault final := by
  obtain ⟨before, b, behind, reached, rfl, rfl, hbefore, hb⟩ := h
  refine ⟨a :: before, b, behind, reached, rfl, rfl, ?_, hb⟩
  rw [Assignment.runAll, run_bind_ok ha]
  exact hbefore

/-- **Two runs end alike**: they both complete, or they both fail at the same statement with a fault
of the same kind. What they leave behind is the same but for the name `star`. -/
inductive Assignment.EndAlike (as as' : List Assignment) (env env' : Env) : Prop
  /-- Both complete. -/
  | completes (final final' : Env) (hrun : (Assignment.runAll as).run env = (.ok (), final))
    (hrun' : (Assignment.runAll as').run env' = (.ok (), final'))
    (hsame : final'.without "star" = final)
  /-- Both fail. -/
  | fails (place : Nat) (fault fault' : Fault) (final final' : Env)
    (hfails : Assignment.FailsAt place as env fault final)
    (hfails' : Assignment.FailsAt place as' env' fault' final') (hkind : fault.SameKind fault')
    (hsame : final'.without "star" = final)

/-- Statements that run in lockstep never take a stray back. -/
theorem rises_runAll_of_forall {as as' : List Assignment}
    (h : List.Forall₂ (fun a a' => RunsAlike a.run a'.run) as as') : Rises (Assignment.runAll as) := by
  induction h with
  | nil => exact (hosted_pure ()).rises
  | cons ha _ ih => exact ha.rises.bind fun _ => ih

/-- Statements that run in lockstep end alike. -/
theorem endAlike_of_forall {as as' : List Assignment}
    (h : List.Forall₂ (fun a a' => RunsAlike a.run a'.run) as as') {env env' : Env}
    (hm : env.Mirrors env') (hstays : Run.Stays (Assignment.runAll as) env) :
    Assignment.EndAlike as as' env env' := by
  induction h generalizing env env' with
  | nil => exact .completes env env' rfl rfl hm.same
  | @cons a a' as as' ha has ih =>
    have hrises := fun _ : Unit => rises_runAll_of_forall has
    obtain ⟨hresult, hnext⟩ := ha.alike env env' hm (hstays.first ha.rises hrises)
    rcases hrun : a.run.run env with ⟨result, next⟩
    rcases hrun' : a'.run.run env' with ⟨result', next'⟩
    rw [hrun, hrun'] at hresult hnext
    cases hresult with
    | ok u =>
      cases ih hnext (hstays.second ha.rises hrises hrun) with
      | completes final final' hrest hrest' hsame =>
        refine .completes final final' ?_ ?_ hsame
        · rw [Assignment.runAll, run_bind_ok hrun]
          exact hrest
        · rw [Assignment.runAll, run_bind_ok hrun']
          exact hrest'
      | fails place fault fault' final final' hfails hfails' hkind hsame =>
        exact .fails (place + 1) fault fault' final final' (hfails.cons hrun) (hfails'.cons hrun')
          hkind hsame
    | @error fault fault' hkind =>
      exact .fails 0 fault fault' next next' ⟨[], a, as, env, rfl, rfl, rfl, hrun⟩
        ⟨[], a', as', env', rfl, rfl, rfl, hrun'⟩ hkind hnext.same

/-! ### Fresh environments -/

/-- What some names are bound to, in a dictionary. -/
theorem find?_filterMap (f : String → Option Value) {name : String} {names : List String}
    (h : name ∈ names) :
    Datum.find? name (names.filterMap fun key => (f key).map fun v => (key, v)) = f name := by
  induction names with
  | nil => cases h
  | cons key names ih =>
    rcases eq_or_ne key name with rfl | hkey
    · rcases hf : f key with _ | v
      · by_cases hmore : key ∈ names
        · simpa [hf] using ih hmore
        · rw [Datum.find?, Option.map_eq_none_iff, List.find?_eq_none]
          intro entry hentry
          obtain ⟨k, hk, hv⟩ := List.mem_filterMap.1 hentry
          obtain ⟨v, hv, rfl⟩ := Option.map_eq_some_iff.1 hv
          rintro hname
          obtain rfl : k = key := by simpa using hname
          rw [hf] at hv
          cases hv
      · simp [hf, Datum.find?_cons]
    · have hname : name ∈ names := (List.mem_cons.1 h).resolve_left hkey.symm
      rw [List.filterMap_cons]
      rcases f key with _ | v
      · exact ih hname
      · rw [Option.map_some, Datum.find?_cons, if_neg hkey]
        exact ih hname

/-- **A fresh environment is mirrored by itself with the star namespace bound.** -/
theorem Env.mirrors_withStar {methods : PlainMethods} {opLimit : Value} {config : Option Config}
    {env : Env} (h : Env.fresh methods opLimit config = .ok env) : env.Mirrors env.withStar := by
  obtain ⟨⟨close, hbindings⟩, -⟩ := Env.of_fresh h
  have hhost : ∀ entry ∈ hostNames, env.get? entry.1 = some entry.2 := by
    rw [show env.get? = fun name => Datum.find? name (hostBindings close) by rw [← hbindings]; rfl]
    simp [hostNames, hostBindings, Datum.find?_cons]
  refine ⟨?_, hhost, _, Env.get?_bind_self _ _ _, ?_⟩
  · have hnone : env.bindings.filter (fun entry => entry.1 != "star") = env.bindings := by
      rw [hbindings]
      rfl
    show { env with bindings := (Datum.bind "star" env.starNamespace env.bindings).filter _ } = env
    rw [bind_filter_self, hnone]
  · intro entry hentry
    have hname : entry.1 ∈ starNames := by
      have hall : ∀ entry ∈ hostNames, entry.1 ∈ starNames := by simp [hostNames, starNames]
      exact hall entry hentry
    rw [find?_filterMap env.get? hname]
    exact hhost entry hentry

end ChartScript
