import CollatedStore.Proofs.Context
import CollatedStore.Proofs.Registry.Guards

/-!
What foreign code can rely on. Each call stands for one operation on the registry, and none reaches
a store. It is carried out or refused, and exactly a refused call leaves an error to read.
-/
namespace CollatedStore

/-! ## Errors that can be told -/

/-- The error quotes neither a store nor a fault. -/
def CallError.Own : CallError → Prop
  | .store _ _ | .fault _ => False
  | _ => True

theorem CallError.code_isErr (e : CallError) : e.code.isErr = true := by
  cases e <;> rfl

namespace Foreign

/-- Foreign code reads a text up to its first zero. -/
def Tellable (text : String) : Prop := '\x00' ∉ text.toList

instance (text : String) : Decidable (Tellable text) := inferInstanceAs (Decidable (_ ∉ _))

theorem setLastError_of_tellable {text : String} (h : Tellable text) (host : Host) :
    setLastError text host = { host with lastError := some text } := by
  have absent : text.contains '\x00' = false := by
    rw [String.contains_char_eq]
    exact decide_eq_false h
  simp [setLastError, absent]

theorem tellable_append {s t : String} : Tellable (s ++ t) ↔ Tellable s ∧ Tellable t := by
  simp [Tellable]

theorem tellable_toString (text : String) : Tellable (toString text) ↔ Tellable text := .rfl

theorem zero_not_mem_toDigits {base : Nat} (h : 1 < base) (n : Nat) :
    '\x00' ∉ Nat.toDigits base n := by
  induction n using Nat.strongRecOn with
  | ind n ih =>
    have digit : ∀ d, '\x00' ≠ Nat.digitChar d := fun d => (Nat.digitChar_ne '\x00' rfl).symm
    rw [Nat.toDigits_eq_if h]
    split
    · simp [digit]
    · have smaller : n / base < n := Nat.div_lt_self (by omega) h
      simp [digit, ih (n / base) smaller]

theorem tellable_nat (n : Nat) : Tellable (toString n) := by
  rw [Nat.toString_eq_ofList_toDigits, Tellable, String.toList_ofList]
  exact zero_not_mem_toDigits (by decide) n

theorem tellable_hex (n : UInt64) : Tellable (ContextId.hex n) := by
  rw [ContextId.hex, tellable_append]
  refine ⟨by decide, ?_⟩
  rw [Tellable, String.toList_ofList]
  exact zero_not_mem_toDigits (by decide) n.toNat

theorem tellable_text (id : ContextId) : Tellable id.text := tellable_hex id.raw

/-- What a registry or a page refuses is told in full. -/
theorem tellable_of_own {e : CallError} (own : e.Own) : Tellable e.text := by
  unfold CallError.text
  cases e with
  | store | fault => exact own.elim
  | noSingle | singleTaken | nullPointer => simp [Tellable]
  | incongruentPage | unregisteredContext | contextTaken | slotsExhausted | stillInstalled =>
    simp only [tellable_append, tellable_toString, tellable_nat, tellable_text]
    simp [Tellable]

end Foreign

namespace Registry

section
variable {r : Registry} {id : ContextId} {collation : Collation} {e : CallError}

theorem register_own (refused : r.register id collation = .error e) : e.Own := by
  unfold register at refused
  split at refused
  · cases refused
    trivial
  · split at refused
    · cases refused
      trivial
    · cases refused

theorem deregister_own (refused : r.deregister id = .error e) : e.Own := by
  unfold deregister at refused
  split at refused
  · cases refused
  · cases refused
    trivial

theorem registerSingle_own (refused : r.registerSingle collation = .error e) : e.Own := by
  unfold registerSingle at refused
  split at refused
  · cases refused
    trivial
  · cases refused

theorem reclaim_own (refused : r.reclaim id = .error e) : e.Own := by
  unfold reclaim at refused
  split at refused
  · cases refused
  · dsimp only at refused
    split at refused
    · cases refused
    · cases refused
      trivial

theorem exportFn_own (refused : r.exportFn (.context id) = .error e) : e.Own := by
  cases live : r.live? id with
  | none =>
    simp only [exportFn, resolve, live] at refused
    cases refused
    trivial
  | some held =>
    simp only [exportFn, resolve, live] at refused
    cases refused

end

end Registry

namespace Foreign

open Registry

/-! ## Calls -/

/-- A call of foreign code. Where it passes no callback, page or place, it passes null. -/
inductive Call where
  | registerContext (id : UInt64) (callback : Option Callback)
  | deregisterContext (id : UInt64)
  | registerSingle (callback : Option Callback)
  | clearSingle
  | reclaimContext (id : UInt64)
  | contextFn (id : UInt64) (hasPlace : Bool)
  | wrapPage (page : Option Bytes) (length stride : Nat) (hasPlace : Bool)
  | contextId (envId : UInt64) (dbi : UInt32)

/-- The places that foreign code has for what calls hand out. -/
structure Places where
  fn : Option CompareFn
  page : Option (Nat × Nat)

inductive Answer where
  | code (result : ResultCode)
  | id (raw : UInt64)

def Answer.failed : Answer → Bool
  | .code result => result.isErr
  | .id raw => raw == invalidContext

/-- Makes a call. A place is written to only if there is something to hand out. -/
def perform (places : Places) (host : Host) : Call → Answer × Places × Host
  | .registerContext id callback =>
    let (code, host) := registerContext id callback host
    (.code code, places, host)
  | .deregisterContext id =>
    let (code, host) := deregisterContext id host
    (.code code, places, host)
  | .registerSingle callback =>
    let (code, host) := registerSingle callback host
    (.code code, places, host)
  | .clearSingle =>
    let (code, host) := clearSingle host
    (.code code, places, host)
  | .reclaimContext id =>
    let (code, host) := reclaimContext id host
    (.code code, places, host)
  | .contextFn id hasPlace =>
    let (code, fn, host) := contextFn id hasPlace host
    (.code code, { places with fn := fn.or places.fn }, host)
  | .wrapPage page length stride hasPlace =>
    let (code, described, host) := wrapPage page length stride hasPlace host
    (.code code, { places with page := described.or places.page }, host)
  | .contextId envId dbi =>
    let (raw, host) := contextId envId dbi host
    (.id raw, places, host)

/-- Null where the call cannot do without. An empty page need not be there. -/
def Call.hasNull : Call → Bool
  | .registerContext _ callback | .registerSingle callback => callback.isNone
  | .contextFn _ hasPlace => !hasPlace
  | .wrapPage page length _ hasPlace => !hasPlace || page.isNone && length != 0
  | _ => false

/-- What a call does that is carried out: its answer, what it hands out, and the registry that the
operation it stands for makes of `r`. -/
inductive Carried (r : Registry) (places : Places) : Call → Answer → Places → Registry → Prop
  | registerContext {id : UInt64} {callback : Callback} {g : Guard} {r' : Registry}
      (registered : r.register ⟨id⟩ (.ofCallback callback) = .ok (g, r')) :
      Carried r places (.registerContext id (some callback)) (.code .ok) places r'
  | deregisterContext {id : UInt64} {r' : Registry} (ended : r.deregister ⟨id⟩ = .ok r') :
      Carried r places (.deregisterContext id) (.code .ok) places r'
  | registerSingle {callback : Callback} {r' : Registry}
      (registered : r.registerSingle (.ofCallback callback) = .ok r') :
      Carried r places (.registerSingle (some callback)) (.code .ok) places r'
  | clearSingle : Carried r places .clearSingle (.code .ok) places r.clearSingle.2
  | reclaimContext {id : UInt64} {r' : Registry} (freed : r.reclaim ⟨id⟩ = .ok (true, r')) :
      Carried r places (.reclaimContext id) (.code .ok) places r'
  | contextFn {id : UInt64} {fn : CompareFn} {r' : Registry}
      (handed : r.exportFn (.context ⟨id⟩) = .ok (fn, r')) :
      Carried r places (.contextFn id true) (.code .ok) { places with fn := some fn } r'
  | wrapPage {page : Option Bytes} {length stride : Nat} {batch : Batch}
      (readable : page.isSome ∨ length = 0)
      (described : Batch.ofPage? ((page.getD []).take length) stride = some batch) :
      Carried r places (.wrapPage page length stride true) (.code .ok)
        { places with page := some (batch.stride, batch.count) } r
  | contextId {envId : UInt64} {dbi : UInt32} {id : ContextId}
      (made : ContextId.ofDb .keys envId dbi = .ok id) :
      Carried r places (.contextId envId dbi) (.id id.raw) places r

/-- Why a call is refused, as its answer and the text of the error tell. -/
inductive Refused (r : Registry) : Call → Answer → String → Prop
  | null {call : Call} (null : call.hasNull = true) :
      Refused r call (.code .nullPointer) CallError.nullPointer.text
  | registerContext {id : UInt64} {callback : Callback} {e : CallError}
      (refused : r.register ⟨id⟩ (.ofCallback callback) = .error e) :
      Refused r (.registerContext id (some callback)) (.code e.code) e.text
  | deregisterContext {id : UInt64} {e : CallError} (refused : r.deregister ⟨id⟩ = .error e) :
      Refused r (.deregisterContext id) (.code e.code) e.text
  | registerSingle {callback : Callback} {e : CallError}
      (refused : r.registerSingle (.ofCallback callback) = .error e) :
      Refused r (.registerSingle (some callback)) (.code e.code) e.text
  | reclaimContext {id : UInt64} {e : CallError} (refused : r.reclaim ⟨id⟩ = .error e) :
      Refused r (.reclaimContext id) (.code e.code) e.text
  /-- For the registry itself this is no error. -/
  | nothingReleased {id : UInt64} {r' : Registry} (kept : r.reclaim ⟨id⟩ = .ok (false, r')) :
      Refused r (.reclaimContext id) (.code .notRegistered)
        s!"context {(ContextId.mk id).text} holds no released slot"
  | contextFn {id : UInt64} {e : CallError} (refused : r.exportFn (.context ⟨id⟩) = .error e) :
      Refused r (.contextFn id true) (.code e.code) e.text
  | wrapPage {page : Option Bytes} {length stride : Nat} (readable : page.isSome ∨ length = 0)
      (odd : Batch.ofPage? ((page.getD []).take length) stride = none) :
      Refused r (.wrapPage page length stride true) (.code .invalidArgument)
        (CallError.incongruentPage ((page.getD []).take length).length stride).text
  | contextId {envId : UInt64} {dbi : UInt32} (wide : ContextId.maxEnvId < envId) :
      Refused r (.contextId envId dbi) (.id invalidContext)
        s!"environment id {ContextId.hex envId} exceeds 31 bits"

section
variable {places places' : Places} {host : Host} {call : Call} {answer : Answer} {text : String}
  {r r' : Registry}

theorem fail_of_own {e : CallError} (own : e.Own) :
    fail host e = (e.code, { host with lastError := some e.text }) := by
  rw [fail, setLastError_of_tellable (tellable_of_own own)]

theorem attempt_of_ok {f : Registry → Except CallError Registry} (h : f host.registry = .ok r') :
    attempt host f = (.ok, ⟨r', host.parked, none⟩) := by
  simp only [attempt, clearLastError, h]

theorem attempt_of_error {f : Registry → Except CallError Registry} {e : CallError} (own : e.Own)
    (h : f host.registry = .error e) :
    attempt host f = (e.code, { host with lastError := some e.text }) := by
  simp only [attempt, clearLastError, h, fail_of_own own]

/-- A page that can be read is described, or refused if it is not all records. -/
theorem wrapPage_eq {page : Option Bytes} {length : Nat} {bytes : Bytes}
    (readable : page.isSome ∨ length = 0) (read : (page.getD []).take length = bytes)
    (stride : Nat) (host : Host) :
    wrapPage page length stride true host =
      match Batch.ofPage? bytes stride with
      | some batch => (.ok, some (batch.stride, batch.count), { host with lastError := none })
      | none => (.invalidArgument, none,
          { host with lastError := some (CallError.incongruentPage bytes.length stride).text }) := by
  cases described : Batch.ofPage? bytes stride with
  | some batch =>
    simp only [wrapPage, clearLastError, read, described, readable, and_self, if_true]
  | none =>
    simp only [wrapPage, clearLastError, read, described, readable, and_self, if_true,
      fail_of_own (e := .incongruentPage _ _) trivial]
    rfl

/-- The guard of the registration is given up at once. -/
theorem registerContext_eq (id : UInt64) (callback : Callback) (host : Host) :
    registerContext id (some callback) host =
      attempt host fun r => (r.register ⟨id⟩ (.ofCallback callback)).map Prod.snd := rfl

theorem Carried.perform (h : Carried host.registry places call answer places' r') :
    perform places host call = (answer, places', ⟨r', host.parked, none⟩) := by
  cases h with
  | @registerContext id callback g _ registered =>
    have ended : Foreign.registerContext id (some callback) host =
        (.ok, ⟨r', host.parked, none⟩) := by
      rw [registerContext_eq]
      apply attempt_of_ok
      rw [registered]
      rfl
    simp only [Foreign.perform, ended]
  | @deregisterContext id _ left =>
    have ended : Foreign.deregisterContext id host = _ := attempt_of_ok left
    simp only [Foreign.perform, ended]
  | @registerSingle callback _ registered =>
    have ended : Foreign.registerSingle (some callback) host = _ := attempt_of_ok registered
    simp only [Foreign.perform, ended]
  | clearSingle => rfl
  | reclaimContext freed =>
    simp only [Foreign.perform, Foreign.reclaimContext, clearLastError, freed]
  | contextFn handed =>
    simp only [Foreign.perform, Foreign.contextFn, clearLastError, handed, if_true]
    rfl
  | wrapPage readable described =>
    simp only [Foreign.perform, wrapPage_eq readable rfl, described]
    rfl
  | contextId made => simp only [Foreign.perform, Foreign.contextId, clearLastError, made]

theorem fail_null (host : Host) : fail host .nullPointer =
    (.nullPointer, { host with lastError := some CallError.nullPointer.text }) :=
  fail_of_own (e := .nullPointer) trivial

theorem perform_null (null : call.hasNull = true) : perform places host call =
    (.code .nullPointer, places, { host with lastError := some CallError.nullPointer.text }) := by
  cases call with
  | registerContext id callback =>
    obtain rfl : callback = none := Option.isNone_iff_eq_none.mp null
    have ended : registerContext id none host = _ := attempt_of_error (e := .nullPointer) trivial rfl
    simp only [perform, ended]
    rfl
  | registerSingle callback =>
    obtain rfl : callback = none := Option.isNone_iff_eq_none.mp null
    have ended : registerSingle none host = _ := attempt_of_error (e := .nullPointer) trivial rfl
    simp only [perform, ended]
    rfl
  | contextFn id hasPlace =>
    obtain rfl : hasPlace = false := by simpa [Call.hasNull] using null
    simp only [perform, contextFn, Bool.false_eq_true, if_false, fail_null]
    rfl
  | wrapPage page length stride hasPlace =>
    have unusable : ¬ (hasPlace = true ∧ (page.isSome = true ∨ length = 0)) := by
      rintro ⟨rfl, readable⟩
      simp only [Call.hasNull, Bool.not_true, Bool.false_or, Bool.and_eq_true, bne_iff_ne] at null
      obtain ⟨missing, claimed⟩ := null
      obtain there | empty := readable
      · rw [Option.isNone_iff_eq_none.mp missing] at there
        cases there
      · exact claimed empty
    simp only [perform, wrapPage, if_neg unusable, fail_null]
    rfl
  | deregisterContext | clearSingle | reclaimContext | contextId => cases null

theorem Refused.perform (h : Refused host.registry call answer text) :
    perform places host call = (answer, places, { host with lastError := some text }) := by
  cases h with
  | null null => exact perform_null null
  | @registerContext id callback e refused =>
    have ended : Foreign.registerContext id (some callback) host =
        (e.code, { host with lastError := some e.text }) := by
      rw [registerContext_eq]
      apply attempt_of_error (register_own refused)
      rw [refused]
      rfl
    simp only [Foreign.perform, ended]
  | @deregisterContext id e refused =>
    have ended : Foreign.deregisterContext id host = _ :=
      attempt_of_error (deregister_own refused) refused
    simp only [Foreign.perform, ended]
  | @registerSingle callback e refused =>
    have ended : Foreign.registerSingle (some callback) host = _ :=
      attempt_of_error (registerSingle_own refused) refused
    simp only [Foreign.perform, ended]
  | reclaimContext refused =>
    simp only [Foreign.perform, Foreign.reclaimContext, clearLastError, refused,
      fail_of_own (reclaim_own refused)]
  | @nothingReleased id r' kept =>
    have tellable : Tellable s!"context {(ContextId.mk id).text} holds no released slot" := by
      simp only [tellable_append, tellable_toString, tellable_text]
      simp [Tellable]
    simp only [Foreign.perform, Foreign.reclaimContext, clearLastError, kept]
    rw [setLastError_of_tellable tellable]
  | contextFn refused =>
    simp only [Foreign.perform, Foreign.contextFn, clearLastError, refused, if_true,
      fail_of_own (exportFn_own refused)]
    rfl
  | wrapPage readable odd =>
    simp only [Foreign.perform, wrapPage_eq readable rfl, odd]
    rfl
  | @contextId envId dbi wide =>
    have tellable : Tellable s!"environment id {ContextId.hex envId} exceeds 31 bits" := by
      simp only [tellable_append, tellable_toString, tellable_hex]
      simp [Tellable]
    simp only [Foreign.perform, Foreign.contextId, ContextId.ofDb_wide wide]
    rw [setLastError_of_tellable tellable]

/-- There is no third way for a call to end. -/
theorem carried_or_refused (r : Registry) (places : Places) (call : Call) :
    (∃ answer places' r', Carried r places call answer places' r') ∨
      ∃ answer text, Refused r call answer text := by
  by_cases null : call.hasNull = true
  · exact .inr ⟨_, _, .null null⟩
  · cases call with
    | registerContext id callback =>
      cases callback with
      | none => exact absurd rfl null
      | some callback =>
        cases registered : r.register ⟨id⟩ (.ofCallback callback) with
        | ok made => exact .inl ⟨_, _, _, .registerContext registered⟩
        | error e => exact .inr ⟨_, _, .registerContext registered⟩
    | deregisterContext id =>
      cases ended : r.deregister ⟨id⟩ with
      | ok r' => exact .inl ⟨_, _, _, .deregisterContext ended⟩
      | error e => exact .inr ⟨_, _, .deregisterContext ended⟩
    | registerSingle callback =>
      cases callback with
      | none => exact absurd rfl null
      | some callback =>
        cases registered : r.registerSingle (.ofCallback callback) with
        | ok r' => exact .inl ⟨_, _, _, .registerSingle registered⟩
        | error e => exact .inr ⟨_, _, .registerSingle registered⟩
    | clearSingle => exact .inl ⟨_, _, _, .clearSingle⟩
    | reclaimContext id =>
      cases reclaimed : r.reclaim ⟨id⟩ with
      | error e => exact .inr ⟨_, _, .reclaimContext reclaimed⟩
      | ok freed =>
        obtain ⟨_ | _, r'⟩ := freed
        · exact .inr ⟨_, _, .nothingReleased reclaimed⟩
        · exact .inl ⟨_, _, _, .reclaimContext reclaimed⟩
    | contextFn id hasPlace =>
      obtain rfl : hasPlace = true := by simpa [Call.hasNull] using null
      cases handed : r.exportFn (.context ⟨id⟩) with
      | ok found => exact .inl ⟨_, _, _, .contextFn handed⟩
      | error e => exact .inr ⟨_, _, .contextFn handed⟩
    | wrapPage page length stride hasPlace =>
      obtain rfl : hasPlace = true := by
        cases hasPlace with
        | false => exact absurd rfl null
        | true => rfl
      have readable : page.isSome = true ∨ length = 0 := by
        cases page with
        | none => exact .inr (by simpa [Call.hasNull] using null)
        | some page => exact .inl rfl
      cases described : Batch.ofPage? ((page.getD []).take length) stride with
      | some batch => exact .inl ⟨_, _, _, .wrapPage readable described⟩
      | none => exact .inr ⟨_, _, .wrapPage readable described⟩
    | contextId envId dbi =>
      cases made : ContextId.ofDb .keys envId dbi with
      | ok id => exact .inl ⟨_, _, _, .contextId made⟩
      | error b =>
        refine .inr ⟨_, _, .contextId (UInt64.not_le.mp fun narrow => ?_)⟩
        rw [ContextId.ofDb_eq_ok.mpr ⟨narrow, rfl⟩] at made
        cases made

theorem Carried.not_failed (h : Carried r places call answer places' r') :
    answer.failed = false := by
  cases h with
  | contextId made => simpa [Answer.failed] using ContextId.ofDb_keys_ne_invalid made
  | _ => rfl

theorem Refused.failed (h : Refused r call answer text) : answer.failed = true := by
  cases h with
  | null null => rfl
  | contextId wide => rfl
  | nothingReleased kept => rfl
  | wrapPage readable odd => rfl
  | _ => exact CallError.code_isErr _

/-- What foreign code can rely on once a call has ended, whatever it called before. -/
structure Contract (host : Host) (places : Places) (call : Call) (answer : Answer)
    (places' : Places) (host' : Host) : Prop where
  /-- An error is left by a call that fails, and by no other. -/
  told : host'.lastError.isSome = answer.failed
  /-- No call touches the fault that waits. -/
  parked : host'.parked = host.parked
  /-- A call that fails hands nothing out and changes nothing but the last error. -/
  failed : answer.failed = true → places' = places ∧ host'.registry = host.registry ∧
    ∃ text, Refused host.registry call answer text ∧ host'.lastError = some text
  succeeded : answer.failed = false →
    Carried host.registry places call answer places' host'.registry
  /-- No call fails that could be carried out. -/
  carried : ∀ answer' places'' r', Carried host.registry places call answer' places'' r' →
    answer.failed = false
  /-- With its guard given up, a registration lasts until its context is deregistered. -/
  lasts : ∀ id callback history, call = .registerContext id callback → answer.failed = false →
    host.registry = (Registrar.new.run history).registry → ∀ later,
      (⟨host'.registry, (Registrar.new.run history).guards⟩ : Registrar).Throughout ⟨id⟩ later ↔
        .deregister ⟨id⟩ ∉ later

end

/-- **What foreign code can rely on**, in every state and for every call. -/
theorem foreign_calls_keep_their_contract (host : Host) (places : Places) (call : Call) :
    Contract host places call (perform places host call).1 (perform places host call).2.1
      (perform places host call).2.2 := by
  obtain ⟨answer, places', r', carried⟩ | ⟨answer, text, refused⟩ :=
    carried_or_refused host.registry places call
  · rw [carried.perform]
    have fine := carried.not_failed
    constructor
    case told => exact fine.symm
    case parked => rfl
    case failed =>
      intro failed
      rw [fine] at failed
      cases failed
    case succeeded =>
      intro _
      exact carried
    case carried =>
      intro _ _ _ _
      exact fine
    case lasts =>
      rintro id callback history rfl _ known
      cases carried with
      | registerContext registered =>
        rw [known] at registered
        exact Registrar.throughout_iff_spared registered
  · have ended : perform places host call = _ := refused.perform
    rw [ended]
    have failed := refused.failed
    constructor
    case told => exact failed.symm
    case parked => rfl
    case failed =>
      intro _
      exact ⟨rfl, rfl, text, refused, rfl⟩
    case succeeded =>
      intro fine
      rw [failed] at fine
      cases fine
    case carried =>
      -- A call that is carried out leaves no error, and a refused one does.
      intro _ _ _ carried
      rw [carried.perform] at ended
      cases ended
    case lasts =>
      intro _ _ _ _ fine
      rw [failed] at fine
      cases fine

/-- After an error that was left before. A guard of the registration is of no use to anyone. -/
theorem foreign_calls_keep_their_contract_after_an_error :
    let host : Host := ⟨Registry.new, none, some CallError.nullPointer.text⟩
    let ended := perform ⟨none, none⟩ host (.registerContext 5 (some fun _ _ => 0))
    let later : List Operation := [.drop ⟨⟨5⟩, ⟨0, by decide⟩, 1⟩, .forgetEnvironment 1]
    ended.1.failed = false ∧ ended.2.2.lastError = none ∧
      (⟨ended.2.2.registry, []⟩ : Registrar).Throughout ⟨5⟩ later := by
  intro host ended later
  have contract := foreign_calls_keep_their_contract host ⟨none, none⟩
    (.registerContext 5 (some fun _ _ => 0))
  refine ⟨rfl, ?_, ?_⟩
  · have told : ended.2.2.lastError.isSome = false := contract.told
    simpa using told
  · exact (contract.lasts 5 _ [] rfl rfl rfl later).mpr (by simp [later])

end Foreign

end CollatedStore
