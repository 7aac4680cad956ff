import CallLowering.Proofs.Lowering.Discipline

namespace CallLowering

variable {τ : Type} {r : Registry} {run : Runner (StateM τ)}

theorem DiagnosticLog.report_ne (log : DiagnosticLog) (d : Diagnostic) : log.report d≠log := by
  intro h
  have hl := congrArg (fun l => l.diagnostics.length) h
  simp [report] at hl

theorem Diagnostic.ofError_isError (e : LowerError) (location : SourceLocation) :
    (ofError e location).isError := by
  cases e <;> rfl

/-- A call with the log before and after it, what it ended with, and how the capabilities ended that it
ran. -/
structure Call where
  site : CallSite
  args : Arguments
  before : DiagnosticLog
  after : DiagnosticLog
  result : Except LowerError Artifact
  answers : Answers

namespace Call

variable {c : Call}

/-- The call was lowered for the backend of its arguments. -/
def Lowered (c : Call) : Prop :=
  (∃ a, c.result=.ok a ∧ a.isFor c.args.backend) ∧ c.after=c.before

/-- The call was replaced, and one error of the author of the template reported at its place. -/
def Reported (c : Call) : Prop :=
  c.result=.ok (.placeholder c.args.backend) ∧ ∃ e, e.errorClass=.user ∧
    (Diagnostic.ofError e c.site.location).isError ∧
    c.after=c.before.report (.ofError e c.site.location)

def GivenUp (c : Call) : Prop :=
  (∃ e, c.result=.error e ∧ (e.errorClass=.configuration ∨ e.errorClass=.internal)) ∧ c.after=c.before

/-- Exactly one of the three. -/
def HasOutcome (c : Call) : Prop :=
  (c.Lowered ∧ ¬c.Reported ∧ ¬c.GivenUp) ∨ (¬c.Lowered ∧ c.Reported ∧ ¬c.GivenUp) ∨
    (¬c.Lowered ∧ ¬c.Reported ∧ c.GivenUp)

theorem Lowered.not_givenUp (h : c.Lowered) : ¬c.GivenUp := by
  intro h'
  obtain ⟨⟨a,ha,-⟩,-⟩ := h
  obtain ⟨⟨e,he,-⟩,-⟩ := h'
  rw [ha] at he
  cases he

theorem Reported.after_ne (h : c.Reported) : c.after≠c.before := by
  obtain ⟨-,e,-,-,ha⟩ := h
  rw [ha]
  exact DiagnosticLog.report_ne _ _

theorem Reported.errorCount (h : c.Reported) : c.after.errorCount=c.before.errorCount+1 := by
  obtain ⟨-,e,-,herror,ha⟩ := h
  rw [ha,DiagnosticLog.report]
  exact if_pos herror

theorem Lowered.hasOutcome (h : c.Lowered) : c.HasOutcome :=
  .inl ⟨h,fun hr => hr.after_ne h.2,h.not_givenUp⟩

theorem Reported.hasOutcome (h : c.Reported) : c.HasOutcome :=
  .inr (.inl ⟨fun hl => h.after_ne hl.2,h,fun hg => h.after_ne hg.2⟩)

theorem GivenUp.hasOutcome (h : c.GivenUp) : c.HasOutcome :=
  .inr (.inr ⟨fun hl => hl.not_givenUp h,fun hr => hr.after_ne h.2,h⟩)

theorem HasOutcome.after_eq (h : c.HasOutcome) (hr : ¬c.Reported) : c.after=c.before := by
  obtain hl|hr'|hg := h
  · exact hl.1.2
  · exact absurd hr'.2.1 hr
  · exact hg.2.2.2

/-- What can be relied on in every call. -/
structure Disciplined (r : Registry) (c : Call) : Prop where
  outcome : c.HasOutcome
  once : c.answers.length ≤ 1
  checked : c.answers≠[] → r.Accepts c.site c.args
  arity : ∀ name expected actual, some (.arityMismatch name expected actual)∈c.answers →
    ∃ message, c.result=.error (.internal message)

/-- Is this what lowering the call does, in some state of the capabilities? -/
def Made (run : Runner (StateM τ)) (r : Registry) (c : Call) : Prop :=
  ∃ t t', r.lowerBy run.recorded c.site c.args c.before (t,[])=((c.result,c.after),(t',c.answers))

/-- The call, if checking and lowering it ends with this. -/
def ofTried (site : CallSite) (args : Arguments) (before : DiagnosticLog) (answers : Answers) :
    Except LowerError Artifact → Call
  | .ok a => ⟨site,args,before,before,.ok a,answers⟩
  | .error e =>
      if e.errorClass=.user then
        ⟨site,args,before,before.report (.ofError e site.location),.ok (.placeholder args.backend),answers⟩
      else ⟨site,args,before,before,.error e,answers⟩

theorem ofTried_hasOutcome {site : CallSite} {args : Arguments} {answers : Answers}
    {result : Except LowerError Artifact} (h : r.Tried site args answers result)
    (before : DiagnosticLog) : (ofTried site args before answers result).HasOutcome := by
  cases result with
  | ok a =>
    apply Lowered.hasOutcome
    exact ⟨⟨a,rfl,h.kind a rfl⟩,rfl⟩
  | error e =>
    rw [ofTried]
    by_cases he : e.errorClass=.user
    · rw [if_pos he]
      apply Reported.hasOutcome
      exact ⟨rfl,e,he,Diagnostic.ofError_isError e _,rfl⟩
    · rw [if_neg he]
      apply GivenUp.hasOutcome
      refine ⟨⟨e,rfl,?_⟩,rfl⟩
      cases hc : e.errorClass with
      | configuration => exact .inl rfl
      | user => exact absurd hc he
      | internal => exact .inr rfl

theorem ofTried_disciplined {site : CallSite} {args : Arguments} {answers : Answers}
    {result : Except LowerError Artifact} (h : r.Tried site args answers result)
    (before : DiagnosticLog) : (ofTried site args before answers result).Disciplined r := by
  have same : (ofTried site args before answers result).site=site ∧
      (ofTried site args before answers result).args=args ∧
      (ofTried site args before answers result).answers=answers := by
    cases result with
    | ok a => exact ⟨rfl,rfl,rfl⟩
    | error e =>
      rw [ofTried]
      split <;> exact ⟨rfl,rfl,rfl⟩
  refine ⟨ofTried_hasOutcome h before,?_,?_,?_⟩
  · rw [same.2.2]
    exact h.once
  · rw [same.1,same.2.1,same.2.2]
    exact h.checked
  · intro name expected actual hm
    rw [same.2.2] at hm
    rw [h.passed _ hm]
    exact ⟨_,rfl⟩

theorem Made.eq_ofTried (h : c.Made run r) :
    ∃ result, r.Tried c.site c.args c.answers result ∧
      c=ofTried c.site c.args c.before c.answers result := by
  obtain ⟨t,t',h⟩ := h
  have ends : Ends (r.tryLower run.recorded c.site c.args) (r.Tried c.site c.args) :=
    Registry.tryLower_tried c.site c.args
  obtain ⟨result,u,answers,htry,tried⟩ := ends t []
  obtain ⟨site,args,before,after,ended,answers'⟩ := c
  simp only [Registry.lowerBy,Bind.bind,StateT.bind,ExceptT.run,htry,List.nil_append] at h
  cases result with
  | ok a =>
    cases h
    exact ⟨.ok a,tried,rfl⟩
  | error e =>
    by_cases he : e.errorClass=.user
    · simp only [if_pos he] at h
      cases h
      exact ⟨.error e,tried,by rw [ofTried,if_pos he]⟩
    · simp only [if_neg he] at h
      cases h
      exact ⟨.error e,tried,by rw [ofTried,if_neg he]⟩

/-- Lowering with capabilities that keep no state is a call like any other. -/
theorem made_of_lower (r : Registry) (site : CallSite) (args : Arguments) (log : DiagnosticLog) :
    ∃ answers, Made (.direct : Runner (StateM Unit)) r
      ⟨site,args,log,(r.lower site args log).2,(r.lower site args log).1,answers⟩ := by
  have ends : Ends (r.tryLower (.direct : Runner (StateM Unit)).recorded site args)
      fun _ a => a=r.tryLower (.direct : Runner Id) site args := Registry.tryLower_direct site args
  obtain ⟨result,u,answers,htry,hresult⟩ := ends () []
  refine ⟨answers,(),u,?_⟩
  simp only [Registry.lower,Registry.lowerBy,Bind.bind,StateT.bind,ExceptT.run,htry,List.nil_append]
  rw [←hresult]
  cases result with
  | ok a => rfl
  | error e => by_cases he : e.errorClass=.user <;> simp only [he,if_true,if_false] <;> rfl

theorem Made.disciplined (h : c.Made run r) : c.Disciplined r := by
  obtain ⟨result,tried,hc⟩ := h.eq_ofTried
  rw [hc]
  exact ofTried_disciplined tried c.before

end Call

/-- Calls one after the other, each with the log that the one before leaves. Between them the state of the
capabilities may change. -/
inductive Registry.Session (run : Runner (StateM τ)) (r : Registry) :
    DiagnosticLog → List Call → DiagnosticLog → Prop
  | nil (log : DiagnosticLog) : Session run r log [] log
  | cons {c : Call} {calls : List Call} {last : DiagnosticLog} (made : c.Made run r)
      (rest : Session run r c.after calls last) : Session run r c.before (c::calls) last

namespace Registry.Session

variable {before after : DiagnosticLog} {calls : List Call}

theorem made (h : r.Session run before calls after) : ∀ c∈calls, c.Made run r := by
  induction h with
  | nil log => simp
  | cons made rest ih =>
    intro c hc
    obtain hc|hc := List.mem_cons.mp hc
    · rw [hc]
      exact made
    · exact ih c hc

theorem split {earlier later : List Call} (h : r.Session run before (earlier++later) after) :
    ∃ middle, r.Session run before earlier middle ∧ r.Session run middle later after := by
  induction earlier generalizing before with
  | nil => exact ⟨before,.nil before,h⟩
  | cons c earlier ih =>
    cases h with
    | cons made rest =>
      obtain ⟨middle,first,second⟩ := ih rest
      exact ⟨middle,.cons made first,second⟩

open Classical in
theorem errorCount (h : r.Session run before calls after) :
    after.errorCount=before.errorCount+calls.countP fun c => decide c.Reported := by
  induction h with
  | nil log => rfl
  | @cons c calls last made rest ih =>
    rw [ih,List.countP_cons]
    by_cases hr : c.Reported
    · rw [hr.errorCount]
      simp only [hr,decide_true,if_true]
      omega
    · rw [made.disciplined.outcome.after_eq hr]
      simp only [hr,decide_false,Bool.false_eq_true,if_false,Nat.add_zero]

theorem errorsSince_iff (h : r.Session run before calls after) :
    after.errorsSince before.checkpoint ↔ ∃ c∈calls, c.Reported := by
  classical
  rw [DiagnosticLog.errorsSince,DiagnosticLog.checkpoint,decide_eq_true_eq,h.errorCount]
  have pos : 0 < calls.countP (fun c => decide c.Reported) ↔ ∃ c∈calls, c.Reported := by
    simp only [List.countP_pos_iff,decide_eq_true_eq]
  rw [←pos]
  omega

open Classical in
/-- Every call of a session is disciplined, whatever the capabilities do. The log counts one error for each
call that was reported, and asked from a mark made between two calls it tells whether a later one was. -/
theorem discipline (h : r.Session run before calls after) :
    (∀ c∈calls, c.Disciplined r) ∧
      after.errorCount=before.errorCount+calls.countP (fun c => decide c.Reported) ∧
      ∀ earlier later, calls=earlier++later → ∃ middle, r.Session run before earlier middle ∧
        r.Session run middle later after ∧
        (after.errorsSince middle.checkpoint ↔ ∃ c∈later, c.Reported) := by
  refine ⟨fun c hc => (h.made c hc).disciplined,h.errorCount,?_⟩
  intro earlier later eq
  rw [eq] at h
  obtain ⟨middle,first,second⟩ := h.split
  exact ⟨middle,first,second,second.errorsSince_iff⟩

/-- A function whose descriptions are at fault: they find a wrong number of arguments that is right. -/
def faulty : Registry :=
  ⟨[⟨⟨"f",[⟨[.any],.int⟩],.pure⟩,
    ⟨none,none,some ⟨fun _ _ => .ok (Python.integer 1),fun _ _ => []⟩,
      some fun _ _ _ => .error (.arityMismatch "f" "2" 1)⟩,[]⟩],.default⟩

def faultyLog : DiagnosticLog := .report .empty (.ofError (.unknownFunction "g") ⟨0,0,4⟩)

def unknownCall : Call :=
  ⟨⟨"g",[.int],⟨0,0,4⟩,0⟩,.python [Python.none],.empty,faultyLog,.ok (.placeholder .python),[]⟩

def refusedCall : Call :=
  ⟨⟨"f",[.int],⟨0,5,9⟩,0⟩,.genericCall [.null],faultyLog,faultyLog,
    .error (Registry.afterCheck (.arityMismatch "f" "2" 1)),[some (.arityMismatch "f" "2" 1)]⟩

def loweredCall : Call :=
  ⟨⟨"f",[.int],⟨0,5,9⟩,0⟩,.python [Python.none],faultyLog,faultyLog,.ok (.text (Python.integer 1) []),
    [none]⟩

theorem discipline_faulty :
    faulty.Session (.direct : Runner (StateM Unit)) .empty [unknownCall,refusedCall,loweredCall] faultyLog ∧
      unknownCall.Disciplined faulty ∧ refusedCall.Disciplined faulty ∧ loweredCall.Disciplined faulty := by
  have unknown : unknownCall.Made (.direct : Runner (StateM Unit)) faulty := ⟨(),(),rfl⟩
  have refused : refusedCall.Made (.direct : Runner (StateM Unit)) faulty := ⟨(),(),rfl⟩
  have lowered : loweredCall.Made (.direct : Runner (StateM Unit)) faulty := ⟨(),(),rfl⟩
  have session : faulty.Session (.direct : Runner (StateM Unit)) .empty
      [unknownCall,refusedCall,loweredCall] faultyLog :=
    .cons unknown (.cons refused (.cons lowered (.nil faultyLog)))
  have all := (discipline session).1
  exact ⟨session,all unknownCall (by simp),all refusedCall (by simp),all loweredCall (by simp)⟩

end Registry.Session

end CallLowering
