import Lumencast.Protocol.RoundTrip
import Lumencast.Server.Answers
import Lumencast.Server.Atomic

/-!
# Server/Escapes — an input that ends its session

`apply_input` answers with `None` or with what it objects to, and the session goes on.  One
conversion on its way is partial: the check of a declared number is made on `float(value)`, which
raises on an integer beyond the double range, and then the reader ends without an answer.
`handlesInput_iff` says which inputs reach it.
-/

namespace Lumencast

open Machinery

/-! ## The conversion

A check raises where no objection precedes it, so a batch is searched for the first patch that is
objected to or raises. -/

/-- A check raises on an integer beyond the doubles, declared a number, and on nothing else. -/
theorem checkConstraint_raises_iff {spec : InputSpec} {value : Json} :
    (∀ err, checkConstraint spec value ≠ .ok err) ↔
      spec.type = "number" ∧ ∃ n, value = .int n ∧ PyFloat.ofInt n = none := by
  constructor
  · intro h
    refine ⟨by_contra fun ht => ?_, by_contra fun hn => ?_⟩
    · obtain ⟨err, herr⟩ := checkConstraint_isOk_of_type ht value
      exact h err herr
    · have hrange : ∀ n, value = .int n → (PyFloat.ofInt n).isSome = true := fun n hv =>
        Option.isSome_iff_ne_none.mpr fun hnone => hn ⟨n, hv, hnone⟩
      obtain ⟨err, herr⟩ := checkConstraint_isOk spec hrange
      exact h err herr
  · rintro ⟨ht, n, rfl, hn⟩ err herr
    rw [checkConstraint_number ht, toNumber_beyond hn] at herr
    cases herr

namespace Scene

/-- **A patch the check of which raises**: both gates let it through, its path is declared a number,
and its value is an integer beyond the doubles. -/
structure Overflows (sc : Scene) (identity : Identity) (p : Patch) : Prop where
  write : identity.canWrite p.path = true
  accepts : sc.acceptsInputPath identity.role p.path = true
  number : ∃ spec, sc.declaredInputs.get? p.path = some spec ∧ spec.type = "number" ∧
    ∃ n, p.value = .int n ∧ PyFloat.ofInt n = none

/-- **A batch the check of which raises**: one of its patches does, and nothing is objected to in
the ones before it. -/
def Raises (sc : Scene) (identity : Identity) (patches : List Patch) : Prop :=
  ∃ pre p post, patches = pre ++ p :: post ∧ sc.Overflows identity p ∧
    ∀ q ∈ pre, ¬ sc.Overflows identity q ∧ ∀ refusal, ¬ sc.Objection identity q refusal

variable {sc : Scene} {identity : Identity}

theorem checkPatch_overflows {p : Patch} (h : sc.Overflows identity p) :
    ∃ e, sc.checkPatch identity p = .error e := by
  obtain ⟨spec, hspec, hnumber⟩ := h.number
  rw [checkPatch, h.write, Bool.not_true, if_neg Bool.false_ne_true, h.accepts, Bool.not_true,
    if_neg Bool.false_ne_true, hspec]
  dsimp only
  rcases hcheck : checkConstraint spec p.value with e | err
  · exact ⟨e, rfl⟩
  · exact absurd hcheck (checkConstraint_raises_iff.mpr hnumber err)

/-- A patch the check of which does not raise is objected to, or passed over. -/
theorem checkPatch_of_not_overflows {p : Patch} (h : ¬ sc.Overflows identity p) :
    ∃ answer, sc.checkPatch identity p = .ok answer ∧
      ∀ refusal, answer = some refusal ↔ sc.Objection identity p refusal := by
  by_cases hcheck : ∀ spec, sc.declaredInputs.get? p.path = some spec →
      ∃ err, checkConstraint spec p.value = .ok err
  · exact checkPatch_eq sc identity hcheck
  push Not at hcheck
  obtain ⟨spec, hspec, hraises⟩ := hcheck
  have hnumber := checkConstraint_raises_iff.mp hraises
  -- the value would raise, so one of the gates is shut
  by_cases hwrite : identity.canWrite p.path = true
  · by_cases haccepts : sc.acceptsInputPath identity.role p.path = true
    · exact absurd ⟨hwrite, haccepts, spec, hspec, hnumber⟩ h
    · rw [Bool.not_eq_true] at haccepts
      rw [checkPatch, hwrite, haccepts]
      refine ⟨_, rfl, fun refusal => ⟨fun heq => ?_, fun hobj => ?_⟩⟩
      · cases heq
        exact .unknown hwrite haccepts
      · cases hobj with
        | forbidden hno => exact absurd (hno.symm.trans hwrite) Bool.false_ne_true
        | unknown _ _ => rfl
        | invalid _ hyes _ _ => exact absurd (haccepts.symm.trans hyes) Bool.false_ne_true
  · rw [Bool.not_eq_true] at hwrite
    rw [checkPatch, hwrite]
    refine ⟨_, rfl, fun refusal => ⟨fun heq => ?_, fun hobj => ?_⟩⟩
    · cases heq
      exact .forbidden hwrite
    · cases hobj with
      | forbidden _ => rfl
      | unknown hyes _ => exact absurd (hwrite.symm.trans hyes) Bool.false_ne_true
      | invalid hyes _ _ _ => exact absurd (hwrite.symm.trans hyes) Bool.false_ne_true

/-- **When the check of a batch raises.** -/
theorem checkPatches_raises_iff : ∀ {patches : List Patch},
    (∀ answer, sc.checkPatches identity patches ≠ .ok answer) ↔ sc.Raises identity patches
  | [] => by
      refine iff_of_false (fun h => h none rfl) ?_
      rintro ⟨pre, p, post, h, -⟩
      exact absurd h (by simp)
  | p :: ps => by
      rw [checkPatches]
      by_cases hp : sc.Overflows identity p
      · obtain ⟨e, he⟩ := checkPatch_overflows hp
        rw [he]
        refine iff_of_true (fun _ h => absurd h (by simp)) ⟨[], p, ps, rfl, hp, ?_⟩
        exact fun q hq => absurd hq List.not_mem_nil
      obtain ⟨answer, hcheck, hanswer⟩ := checkPatch_of_not_overflows hp
      rw [hcheck]
      rcases answer with _ | refusal
      · -- nothing is objected to in `p`, so the rest decides
        have hnone : ∀ refusal, ¬ sc.Objection identity p refusal := fun refusal h =>
          Option.some_ne_none refusal ((hanswer refusal).mpr h).symm
        dsimp only
        rw [checkPatches_raises_iff]
        constructor
        · rintro ⟨pre, q, post, rfl, hq, hpre⟩
          exact ⟨p :: pre, q, post, rfl, hq, List.forall_mem_cons.mpr ⟨⟨hp, hnone⟩, hpre⟩⟩
        · rintro ⟨pre, q, post, heq, hq, hpre⟩
          rcases pre with _ | ⟨p', pre⟩
          · cases heq
            exact absurd hq hp
          · cases heq
            exact ⟨pre, q, post, rfl, hq, (List.forall_mem_cons.mp hpre).2⟩
      · refine iff_of_false (fun h => h _ rfl) ?_
        rintro ⟨pre, q, post, heq, hq, hpre⟩
        rcases pre with _ | ⟨p', pre⟩
        · cases heq
          exact hp hq
        · cases heq
          exact (List.forall_mem_cons.mp hpre).1.2 refusal ((hanswer refusal).mp rfl)

/-- **When `apply_input` raises.** -/
theorem verdict_raises_iff {patches : List Patch} :
    (∀ answer, sc.verdict identity patches ≠ .ok answer) ↔ sc.Raises identity patches := by
  rw [verdict]
  split
  · rename_i hempty
    rw [List.isEmpty_iff.mp hempty, ← checkPatches_raises_iff]
    exact iff_of_false (fun h => h _ rfl) fun h => h none rfl
  · exact checkPatches_raises_iff

theorem applyInput_of_raises {patches : List Patch} (h : sc.Raises identity patches) (subs : Subs)
    (cause : Option Cause) : ∃ e, sc.applyInput subs identity patches cause = .error e := by
  have hresult := applyInput_result sc subs identity patches cause
  rcases happly : sc.applyInput subs identity patches cause with e | r
  · exact ⟨e, rfl⟩
  · rw [happly] at hresult
    exact absurd hresult.symm (verdict_raises_iff.mpr h r.1)

end Scene

/-! ## The session -/

namespace Session

variable [PyRepr]

/-- **An input is handled**: the scene answers it, and the session goes on, after an error frame
that says what was objected to, if something was. -/
def HandlesInput (k : Server) (s : Session) (l : Locals) (ls : Loops) (r : Received) (f : Input) :
    Prop :=
  ∃ answer sc' subs', (k.objects.get l.scene).applyInput k.subs l.identity f.patches
      (causeOf l.identity f.clientMsgId) = .ok (answer, sc', subs') ∧
    match answer with
    | none => (s.receive k l ls r).2 = s.goto (.running l ls.readerNext)
    | some refusal => (s.receive k l ls r).2 = s.write
        (errorFrame (k.objects.get l.scene).currentSeq refusal.code refusal.message
          (refusal.code != .authDenied) refusal.path) none
        (.running l { ls with reader := .sendingError }) ∧
      ∀ ok, (s.receive k l ls r).2.readerSent l { ls with reader := .sendingError } ok
        = some ((s.receive k l ls r).2.goto (.running l ls.readerNext))

/-- Where a session goes on once its scene has answered. -/
def answered (k : Server) (s : Session) (l : Locals) (ls : Loops) : Option Refusal → Session
  | none => s.goto (.running l ls.readerNext)
  | some refusal => s.replyError k l ls refusal.code refusal.message
      (refusal.code != .authDenied) refusal.path .sendingError

theorem receive_of_applyInput {k : Server} (s : Session) {l : Locals} (ls : Loops) {f : Input}
    {answer : Option Refusal} {r : Scene × Subs}
    (h : (k.objects.get l.scene).applyInput k.subs l.identity f.patches
      (causeOf l.identity f.clientMsgId) = .ok (answer, r)) :
    (s.receive k l ls (.frame (.input f))).2 = s.answered k l ls answer := by
  change (s.input k l ls f).2 = _
  rw [input, h]
  rcases answer with _ | refusal
  · rfl
  · rfl

/-- An exception ends the reader, and nothing is sent. -/
theorem receive_of_error {k : Server} (s : Session) {l : Locals} (ls : Loops) {f : Input}
    {e : PyError} (h : (k.objects.get l.scene).applyInput k.subs l.identity f.patches
      (causeOf l.identity f.clientMsgId) = .error e) :
    (s.receive k l ls (.frame (.input f))).2 = s.goto (.running l ls.readerEnds) := by
  change (s.input k l ls f).2 = _
  rw [input, h]
  rfl

variable [PyParse]

/-- **An input is handled unless its check raises.** -/
theorem handlesInput_iff (k : Server) (s : Session) (l : Locals) (ls : Loops) (escaped : PyStr)
    {raw : Raw} {f : Input} (hdecode : decodeClient raw = .ok (.input f)) :
    s.HandlesInput k l ls (received escaped raw) f ↔
      ¬ (k.objects.get l.scene).Raises l.identity f.patches := by
  have hreceived : received escaped raw = .frame (.input f) := by rw [received, hdecode]
  rw [← Scene.verdict_raises_iff, hreceived, HandlesInput]
  have hresult := Scene.applyInput_result (k.objects.get l.scene) k.subs l.identity f.patches
    (causeOf l.identity f.clientMsgId)
  push Not
  constructor
  · rintro ⟨answer, sc', subs', happly, -⟩
    rw [happly] at hresult
    exact ⟨answer, hresult.symm⟩
  · rintro ⟨answer, hanswer⟩
    obtain ⟨⟨answer', sc', subs'⟩, happly, rfl⟩ := map_eq_ok.mp (hresult.trans hanswer)
    refine ⟨answer', sc', subs', happly, ?_⟩
    have hreceive := receive_of_applyInput s ls happly
    rcases answer' with _ | refusal
    · exact hreceive
    · exact ⟨hreceive, fun ok => by rw [hreceive]; rfl⟩

end Session

/-! ## A scene with a gain -/

/-- A server with a scene that declares the gain a number. -/
def gainServer : Server :=
  ({} : Server).newScene "main" "v1" [{ path := "__inputs.gain", type := "number" }] true

/-- The session of an operator on it. -/
def gainLocals : Locals := ⟨0, 0, { role := some .operator }⟩

/-- A gain that is no number. -/
def textGain : Input := { patches := [{ path := "__inputs.gain", value := .str "loud" }] }

theorem handlesInput_iff_textGain :
    letI := PyRepr.plain
    letI := PyParse.only (encode (.input textGain)) (.obj (frameToDict (.input textGain)))
    (default : Session).HandlesInput gainServer gainLocals {}
      (received "" (.text (encode (.input textGain)))) textGain := by
  let := PyRepr.plain
  let := PyParse.only (encode (.input textGain)) (.obj (frameToDict (.input textGain)))
  have hdecode : decodeClient (.text (encode (.input textGain))) = .ok (.input textGain) :=
    decodeClient_of_loads trivial rfl (PyParse.loads_only ..)
  refine (Session.handlesInput_iff gainServer default gainLocals {} "" hdecode).mpr ?_
  rintro ⟨pre, p, post, heq, hover, -⟩
  have hmem : p ∈ textGain.patches := heq ▸ List.mem_append_right pre List.mem_cons_self
  obtain ⟨_, -, -, n, hvalue, -⟩ := hover.number
  rw [List.mem_singleton.mp hmem] at hvalue
  cases hvalue

/-- An operator's input of a gain no double reaches. -/
def hugeGain : Input :=
  { patches := [{ path := "__inputs.gain", value := .int (2 * 2 ^ 1024 : ℕ) }] }

/-- **A huge gain ends its session**: `apply_input` raises, and the reader ends without a word. -/
theorem hugeGain_escapes :
    letI := PyRepr.plain
    letI := PyParse.only (encode (.input hugeGain)) (.obj (frameToDict (.input hugeGain)))
    decodeClient (.text (encode (.input hugeGain))) = .ok (.input hugeGain) ∧
      (gainServer.objects.get 0).Raises gainLocals.identity hugeGain.patches ∧
      ∀ (s : Session) (ls : Loops), ¬ s.HandlesInput gainServer gainLocals ls
          (received "" (.text (encode (.input hugeGain)))) hugeGain ∧
        (s.receive gainServer gainLocals ls (.frame (.input hugeGain))).2
          = s.goto (.running gainLocals ls.readerEnds) := by
  let := PyRepr.plain
  let := PyParse.only (encode (.input hugeGain)) (.obj (frameToDict (.input hugeGain)))
  have hdecode : decodeClient (.text (encode (.input hugeGain))) = .ok (.input hugeGain) :=
    decodeClient_of_loads trivial rfl (PyParse.loads_only ..)
  have hover : (gainServer.objects.get 0).Overflows gainLocals.identity
      ⟨"__inputs.gain", .int (2 * 2 ^ 1024 : ℕ), none⟩ :=
    ⟨by decide, by decide, _, rfl, rfl, _, rfl, ofInt_eq_none le_rfl⟩
  have hraises : (gainServer.objects.get 0).Raises gainLocals.identity hugeGain.patches :=
    ⟨[], _, [], rfl, hover, fun q hq => absurd hq List.not_mem_nil⟩
  refine ⟨hdecode, hraises, fun s ls => ⟨?_, ?_⟩⟩
  · rintro ⟨answer, sc', subs', happly, -⟩
    obtain ⟨e, he⟩ := Scene.applyInput_of_raises hraises gainServer.subs
      (causeOf gainLocals.identity hugeGain.clientMsgId)
    cases he.symm.trans happly
  · obtain ⟨e, he⟩ := Scene.applyInput_of_raises hraises gainServer.subs
      (causeOf gainLocals.identity hugeGain.clientMsgId)
    exact Session.receive_of_error s ls he

end Lumencast
