import OvirtArt.Foundation.Effects
import OvirtArt.TestsLib.LogMessagesReturn

set_option autoImplicit false

/-!
# `art/rhevm_api/tests_lib/low_level/general.py`: the decorator `generate_logs`

A decorated function is called once, after its message was logged.  The decorator changes
nothing for the caller exactly if the message can be computed and the truth of the result
can be told.

The decorated function is any computation.  What is written to the log is kept as the text that
each channel gets; names of functions come with the function.
-/

namespace OvirtArt.TestsLib.General

open OvirtArt.CoreApi OvirtArt.Foundation

/-! ## Where a function is called from -/

/-- A frame of the stack: its function, and the scopes that the fixture or the finalizer in
it has. -/
structure Frame where
  function : String
  fixturedef : Option (Option String) := none
  fin : Option (Option String) := none

/-- The scope that is found last; what has none leaves the empty one. -/
def lastScope (scopes : List (Option (Option String))) : String :=
  scopes.foldl (fun scope found =>
    match found with
    | none => scope
    | some found => found.getD "") ""

/-- `get_called_from_test`. -/
def getCalledFromTest (stack : List Frame) : String × String :=
  if stack.any fun frame => frame.function = "pytest_runtest_call" then ("step", "")
  else if stack.any fun frame => frame.function = "pytest_fixture_setup" then
    ("setup", lastScope (stack.map Frame.fixturedef))
  else if stack.any fun frame => frame.function = "pytest_runtest_teardown" then
    ("teardown", lastScope (stack.map Frame.fin))
  else ("", "")

section

variable {Obj : Type} (objects : Objects Obj)

/-! ## The decorator -/

/-- A function: what `inspect` says of its parameters and of its docstring, and what a call
of it comes to. -/
structure Func (Obj : Type) where
  args : List String
  defaults : List (Arg Obj)
  doc : Option Text
  body : List (Arg Obj) → Kwargs Obj → Except Raised (Arg Obj)

/-- The arguments of `generate_logs`. -/
structure LogFlags where
  info : Bool := true
  error : Bool := true
  step : Bool := false
  warn : Bool := false

/-- What was logged, and how the function was called. -/
structure LogState (Obj : Type) where
  messages : List (String × Text)
  calls : List (List (Arg Obj) × Kwargs Obj)

/-- `dict(zip(names, values))`. -/
def dictOfZip (names : List String) (values : List (Arg Obj)) : Kwargs Obj :=
  (names.zip values).foldl (fun dict entry => dict.insert entry.1 entry.2) ∅

/-- The keys that `dict` does not have are taken over. -/
def takeMissing (dict extra : Kwargs Obj) : Kwargs Obj :=
  extra.entries.foldl (fun dict entry =>
    if entry.1 ∈ dict then dict else dict.insert entry.1 entry.2) dict

/-- `func_argspec_default`; all names are taken if there are no defaults, for nothing. -/
def argspecDefault (func : Func Obj) : Kwargs Obj :=
  dictOfZip
    (if func.defaults = [] then func.args
      else func.args.drop (func.args.length - func.defaults.length)) func.defaults

/-- `kwargs_for_log`, with the positional arguments and the defaults. -/
def kwargsForLog (func : Func Obj) (args : List (Arg Obj)) (kwargs : Kwargs Obj) : Kwargs Obj :=
  takeMissing kwargs (takeMissing (dictOfZip func.args args) (argspecDefault func))

/-- `func_doc.split("\n")[0]`. -/
def firstLine (doc : Text) : Text := (splitAll '\n' doc).headD []

/-- The keywords that are parameters of `get_log_msg`. -/
def logParams (kwargs : Kwargs Obj) : LogParams Obj where
  objType := (kwargs.lookup "obj_type").getD (.prim (.str []))
  objName := (kwargs.lookup "obj_name").getD (.prim (.str []))
  positive := (kwargs.lookup "positive").getD (.prim (.bool true))
  extraTxt := (kwargs.lookup "extra_txt").getD (.prim (.str []))

/-- The keywords that are not. -/
def otherKwargs (kwargs : Kwargs Obj) : Kwargs Obj :=
  (((kwargs.erase "obj_type").erase "obj_name").erase "positive").erase "extra_txt"

/-- `get_log_msg(log_action=log_action, **kwargs)`. -/
def callGetLogMsg (logAction : Text) (kwargs : Kwargs Obj) : Except Raised (Text × Text) :=
  if "log_action" ∈ kwargs then .error .typeError
  else getLogMsg objects logAction (logParams kwargs) (otherKwargs kwargs)

/-- Writes a message to a channel of the log. -/
def emit (channel : String) (text : Text) : EStateM Raised (LogState Obj) Unit :=
  modify fun state => { state with messages := state.messages ++ [(channel, text)] }

/-- The function is called. -/
def callFunc (func : Func Obj) (args : List (Arg Obj)) (kwargs : Kwargs Obj) :
    EStateM Raised (LogState Obj) (Arg Obj) := do
  modify fun state => { state with calls := state.calls ++ [(args, kwargs)] }
  fromExcept (func.body args kwargs)

/-- What is logged before the call. -/
def logBefore (flags : LogFlags) (stack : List Frame) (logInfo : Text) :
    EStateM Raised (LogState Obj) Unit := do
  let (calledFrom, scope) := getCalledFromTest stack
  let scopeLog := if scope = "" then [] else ("[" ++ scope ++ "] ").toList
  if flags.step && calledFrom ≠ "" then emit calledFrom (scopeLog ++ logInfo) else pure ()
  if flags.info then emit "info" logInfo else pure ()

/-- What is logged after a call with a result that is false. -/
def logAfter (flags : LogFlags) (logErr : Text) : EStateM Raised (LogState Obj) Unit :=
  if flags.warn then emit "warn" logErr
  else if flags.error then emit "error" logErr
  else pure ()

/-- `inner`, the decorated function. -/
def inner (flags : LogFlags) (func : Func Obj) (stack : List Frame) (args : List (Arg Obj))
    (kwargs : Kwargs Obj) : EStateM Raised (LogState Obj) (Arg Obj) :=
  match func.doc with
  | none => throw .attributeError
  | some doc => do
      let messages ←
        fromExcept (callGetLogMsg objects (firstLine doc) (kwargsForLog func args kwargs))
      logBefore flags stack messages.1
      let res ← callFunc func args kwargs
      let isTrue ← fromExcept (truth objects res)
      if isTrue then pure () else logAfter flags messages.2
      return res

/-! ## Transparency -/

/-- For the caller the decorated function is the function, which is called once. -/
def Transparent (flags : LogFlags) (func : Func Obj) (stack : List Frame) (args : List (Arg Obj))
    (kwargs : Kwargs Obj) : Prop :=
  match (inner objects flags func stack args kwargs).run ⟨[], []⟩ with
  | .ok res state => func.body args kwargs = .ok res ∧ state.calls = [(args, kwargs)]
  | .error exception state =>
    func.body args kwargs = .error exception ∧ state.calls = [(args, kwargs)]

/-- There is a docstring, its message can be computed, and the truth of the result can be
told. -/
structure LogsQuietly (func : Func Obj) (args : List (Arg Obj)) (kwargs : Kwargs Obj) : Prop where
  doc : func.doc ≠ none
  logAction : "log_action" ∉ kwargsForLog func args kwargs
  loggable : ∀ doc, func.doc = some doc → Loggable objects (firstLine doc)
    (logParams (kwargsForLog func args kwargs)) (otherKwargs (kwargsForLog func args kwargs))
  truth : ∀ res, func.body args kwargs = .ok res → Returns (truth objects res)

variable {objects} {func : Func Obj} {args : List (Arg Obj)} {kwargs : Kwargs Obj}

theorem callGetLogMsg_returns_iff (logAction : Text) (kwargs : Kwargs Obj) :
    Returns (callGetLogMsg objects logAction kwargs) ↔ "log_action" ∉ kwargs ∧
      Loggable objects logAction (logParams kwargs) (otherKwargs kwargs) := by
  unfold callGetLogMsg
  split
  case isTrue h => exact iff_of_false (fun ⟨_, heq⟩ => by cases heq) fun hnot => hnot.1 h
  case isFalse h => rw [getLogMsg_returns_iff, and_iff_right h]

/-- A procedure that always returns and changes the messages only. -/
def OnlyLogs (m : EStateM Raised (LogState Obj) Unit) : Prop :=
  ∀ state, ∃ messages, m.run state = .ok () { state with messages := messages }

theorem onlyLogs_pure : OnlyLogs (pure () : EStateM Raised (LogState Obj) Unit) :=
  fun state => ⟨state.messages, rfl⟩

theorem onlyLogs_emit (channel : String) (text : Text) :
    OnlyLogs (emit channel text : EStateM Raised (LogState Obj) Unit) :=
  fun _ => ⟨_, rfl⟩

variable {m n : EStateM Raised (LogState Obj) Unit}

theorem OnlyLogs.bind (hm : OnlyLogs m) (hn : OnlyLogs n) : OnlyLogs (m >>= fun _ => n) := by
  intro state
  obtain ⟨first, hfirst⟩ := hm state
  obtain ⟨second, hsecond⟩ := hn { state with messages := first }
  refine ⟨second, ?_⟩
  rw [EStateM.run_bind, hfirst]
  exact hsecond

theorem OnlyLogs.ite {c : Prop} [Decidable c] (hm : OnlyLogs m) (hn : OnlyLogs n) :
    OnlyLogs (if c then m else n) := by
  split
  · exact hm
  · exact hn

/-- Logging before the call always returns. -/
theorem onlyLogs_logBefore (flags : LogFlags) (stack : List Frame) (logInfo : Text) :
    OnlyLogs (logBefore flags stack logInfo : EStateM Raised (LogState Obj) Unit) := by
  have hinfo : OnlyLogs (if flags.info then emit "info" logInfo else pure () :
      EStateM Raised (LogState Obj) Unit) := (onlyLogs_emit _ _).ite onlyLogs_pure
  unfold logBefore
  obtain ⟨calledFrom, scope⟩ := getCalledFromTest stack
  exact ((onlyLogs_emit _ _).bind hinfo).ite (onlyLogs_pure.bind hinfo)

theorem onlyLogs_logAfter (flags : LogFlags) (logErr : Text) :
    OnlyLogs (logAfter flags logErr : EStateM Raised (LogState Obj) Unit) :=
  (onlyLogs_emit _ _).ite ((onlyLogs_emit _ _).ite onlyLogs_pure)

/-- What a decorated call comes to once its messages are there. -/
theorem run_inner {flags : LogFlags} {stack : List Frame} {doc : Text} {messages : Text × Text}
    (hdoc : func.doc = some doc)
    (hmessages : callGetLogMsg objects (firstLine doc) (kwargsForLog func args kwargs) =
      .ok messages) :
    ∃ logged, (inner objects flags func stack args kwargs).run ⟨[], []⟩ =
      match func.body args kwargs with
      | .error exception => .error exception ⟨logged, [(args, kwargs)]⟩
      | .ok res =>
        match truth objects res with
        | .error exception => .error exception ⟨logged, [(args, kwargs)]⟩
        | .ok _ => .ok res ⟨logged, [(args, kwargs)]⟩ := by
  obtain ⟨before, hbefore⟩ := onlyLogs_logBefore flags stack messages.1 (⟨[], []⟩ : LogState Obj)
  unfold inner callFunc
  simp only [hdoc]
  rw [EStateM.run_bind, run_fromExcept, hmessages]
  simp only
  rw [EStateM.run_bind, hbefore]
  simp only
  rw [EStateM.run_bind, EStateM.run_bind, EStateM.run_modify]
  simp only [run_fromExcept, List.nil_append]
  cases hbody : func.body args kwargs with
  | error exception => exact ⟨before, rfl⟩
  | ok res =>
    simp only
    rw [EStateM.run_bind, run_fromExcept]
    cases htruth : truth objects res with
    | error exception => exact ⟨before, rfl⟩
    | ok isTrue =>
      cases isTrue with
      | true => exact ⟨before, rfl⟩
      | false =>
        obtain ⟨later, hlater⟩ := onlyLogs_logAfter flags messages.2
          (⟨before, [(args, kwargs)]⟩ : LogState Obj)
        refine ⟨later, ?_⟩
        simp only [Bool.false_eq_true, if_false]
        rw [EStateM.run_bind, hlater]
        rfl

/-- A decorated call is transparent exactly if it logs quietly. -/
theorem transparent_iff (flags : LogFlags) (stack : List Frame) :
    Transparent objects flags func stack args kwargs ↔ LogsQuietly objects func args kwargs := by
  cases hdoc : func.doc with
  | none =>
    have hrun : (inner objects flags func stack args kwargs).run ⟨[], []⟩ =
        .error .attributeError ⟨[], []⟩ := by
      unfold inner
      rw [hdoc]
      rfl
    unfold Transparent
    rw [hrun]
    exact iff_of_false (fun h => by cases h.2) fun h => h.doc hdoc
  | some doc =>
    have hreturns := @callGetLogMsg_returns_iff _ objects (firstLine doc)
      (kwargsForLog func args kwargs)
    cases hmessages : callGetLogMsg objects (firstLine doc) (kwargsForLog func args kwargs) with
    | error exception =>
      have hrun : (inner objects flags func stack args kwargs).run ⟨[], []⟩ =
          .error exception ⟨[], []⟩ := by
        unfold inner
        simp only [hdoc]
        rw [EStateM.run_bind, run_fromExcept, hmessages]
      unfold Transparent
      rw [hrun]
      refine iff_of_false (fun h => by cases h.2) fun h => ?_
      obtain ⟨_, heq⟩ := hreturns.mpr ⟨h.logAction, h.loggable doc hdoc⟩
      rw [hmessages] at heq
      cases heq
    | ok messages =>
      obtain ⟨hlogAction, hloggable⟩ := hreturns.mp ⟨messages, hmessages⟩
      obtain ⟨logged, hrun⟩ := @run_inner _ objects func args kwargs flags stack _ _ hdoc
        hmessages
      have hquiet : LogsQuietly objects func args kwargs ↔
          ∀ res, func.body args kwargs = .ok res → Returns (truth objects res) := by
        refine ⟨fun h => h.truth, fun h => ⟨by rw [hdoc]; simp, hlogAction, ?_, h⟩⟩
        intro other hother
        rw [hdoc] at hother
        rw [← Option.some.inj hother]
        exact hloggable
      rw [hquiet]
      unfold Transparent
      rw [hrun]
      cases hbody : func.body args kwargs with
      | error exception =>
        exact iff_of_true ⟨rfl, rfl⟩ fun res hres => by cases hres
      | ok res =>
        simp only
        cases htruth : truth objects res with
        | error exception =>
          refine iff_of_false (fun h => by cases h.1) fun h => ?_
          obtain ⟨_, heq⟩ := h res rfl
          rw [htruth] at heq
          cases heq
        | ok isTrue =>
          refine iff_of_true ⟨rfl, rfl⟩ fun other hother => ?_
          rw [← Except.ok.inj hother, htruth]
          exact ⟨isTrue, rfl⟩

/-- What the decorator needs to be transparent, and what its parts need to return. -/
theorem logging_returns_iff (objects : Objects Obj) :
    (∀ kwargs, Returns (prepareKwargsForLog objects kwargs) ↔ Readable objects kwargs) ∧
      (∀ logAction params kwargs, Returns (getLogMsg objects logAction params kwargs) ↔
        Loggable objects logAction params kwargs) ∧
        ∀ flags func stack args kwargs, Transparent objects flags func stack args kwargs ↔
          LogsQuietly objects func args kwargs :=
  ⟨prepareKwargsForLog_returns_iff, getLogMsg_returns_iff,
    fun flags _ stack _ _ => transparent_iff flags stack⟩

end

/-- No objects among the arguments. -/
def noObjects : Objects Empty where
  getattr o := nomatch o
  format o := nomatch o
  repr o := nomatch o
  truth o := nomatch o
  printer := ⟨fun _ => [], fun _ => [], fun _ => []⟩
  order entries := entries
  order_perm _ := List.Perm.refl _

/-- A function of some VMs that returns `True`. -/
def rebootHosts : Func Empty where
  args := ["vms"]
  defaults := []
  doc := some "Reboot the VM's hosts".toList
  body _ _ := .ok (.prim (.bool true))

/-- A word with an apostrophe names a parameter, but is not found as a word. -/
theorem apostrophe_not_transparent :
    ¬ Transparent noObjects {} rebootHosts [] [.prim (.str "vm1".toList)] ∅ := by
  intro h
  have hcalls : (after (inner noObjects {} rebootHosts [] [.prim (.str "vm1".toList)] ∅)
      ⟨[], []⟩).calls.length = 0 := by decide
  unfold Transparent at h
  unfold after at hcalls
  cases hrun : (inner noObjects {} rebootHosts [] [.prim (.str "vm1".toList)] ∅).run
      ⟨[], []⟩ with
  | ok res state =>
    rw [hrun] at h hcalls
    simp only [h.2, List.length_singleton] at hcalls
    cases hcalls
  | error exception state =>
    rw [hrun] at h hcalls
    simp only [h.2, List.length_singleton] at hcalls
    cases hcalls

end OvirtArt.TestsLib.General
