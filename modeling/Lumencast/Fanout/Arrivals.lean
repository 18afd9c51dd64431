import Lumencast.Fanout.Poison
import Lumencast.Sessions.World

/-!
# Fanout/Arrivals — inputs as they come off the wire

The text of an input passes the decoder, the role gate, the constraints and the store before it is
encoded again.  A run is made of such texts and of calls by trusted code; every text encoded in it
can be read exactly when every arrival is clean, judged in the state it finds.
-/

namespace Lumencast

open Machinery Grammar

/-! ## Texts and calls

A client reaches a kit through the text of an input and through nothing else that is written
again.  What it comes to is the operation the session performs, so a run of arrivals is one of
the kit. -/

/-- Something a kit is given. -/
inductive Arrival where
  | call (op : Op)
  /-- A client of scene `c` sends a text. -/
  | text (c : SceneRef) (identity : Identity) (raw : Raw)

section Decoders

variable [PyRepr] [PyParse]

/-- The operation a text comes to: only an input is one. -/
def inputOf (c : SceneRef) (identity : Identity) (raw : Raw) : Option Op :=
  match decodeClient raw with
  | .ok (.input f) =>
      some (.scene c (.applyInput identity f.patches (causeOf identity f.clientMsgId)))
  | _ => none

/-- The operation an arrival comes to. -/
def Arrival.op : Arrival → Option Op
  | .call op => some op
  | .text c identity raw => inputOf c identity raw

/-- What an arrival writes can be read. -/
def Arrival.Clean (k : Server) (a : Arrival) : Prop := ∀ op, a.op = some op → op.Clean k

namespace Server

/-- A kit is given something. -/
def arrive (k : Server) (a : Arrival) : Server := a.op.elim k k.step

/-- The operation of a text is that of the call a session performs that receives it… -/
theorem op_receive (k : Server) (s : Session) (l : Locals) (ls : Loops) (escaped : PyStr)
    (raw : Raw) : ((s.receive k l ls (received escaped raw)).1.map Call.op)
      = inputOf l.scene l.identity raw := by
  rw [inputOf, received]
  rcases decodeClient raw with (message | message | message | r) | f
  case ok => cases f <;> rfl
  all_goals rfl

/-- …so a text that a session receives arrives at the kit that serves it. -/
theorem arrive_received {w : World} {i : ℕ} {l : Locals} {ls : Loops}
    (hphase : (w.sessions.get i).phase = .running l ls) (hreader : ls.reader = .receiving)
    (escaped : PyStr) (raw : Raw) :
    (w.step (.session i (.received (received escaped raw)))).kit
      = w.kit.arrive (.text l.scene l.identity raw) := by
  have hstep : (w.sessions.get i).step? w.kit (.received (received escaped raw))
      = some ((w.sessions.get i).receive w.kit l ls (received escaped raw)) := by
    rw [Session.step?_running hphase, Session.loop, if_pos hreader]
  have hop := op_receive w.kit (w.sessions.get i) l ls escaped raw
  rw [World.kit_step, World.opOf, hstep, arrive, Arrival.op, ← hop]
  generalize ((w.sessions.get i).receive w.kit l ls (received escaped raw)) = answer
  rcases answer with ⟨_ | call, s⟩ <;> rfl

/-! ## Every text of a run -/

theorem remembers_arrive (k : Server) (a : Arrival) (hk : k.Remembers) :
    (k.arrive a).Remembers := by
  rw [arrive]
  rcases a.op with _ | op
  · exact hk
  · exact remembers_step k op hk

theorem clean_arrive {k : Server} (hk : k.Clean) (hmax : k.Remembers) (a : Arrival) :
    (k.arrive a).Clean ↔ a.Clean k := by
  rw [arrive, Arrival.Clean]
  rcases a.op with _ | op
  · exact iff_of_true hk fun _ h => (nomatch h)
  · refine (clean_step hk hmax op).trans ⟨fun h op' heq => ?_, fun h => h op rfl⟩
    rwa [← Option.some.inj heq]

/-- **When nobody can poison the stream**: every frame a kit sends, or would send a subscriber that
attaches now, can be read at every point of a run exactly when each arrival was clean. -/
theorem readable_iff (hrepr : ReprNumbers) (as : List Arrival) :
    Always arrive (Serves Frame.Readable) {} as ↔ Steps arrive (fun k a => a.Clean k) {} as := by
  have hclean : Always arrive (Serves Frame.Readable) {} as ↔ Always arrive Clean {} as :=
    forall_congr' fun _ => forall_congr' fun _ => imp_congr_right fun _ =>
      serves_congr fun _ => Frame.readable_iff_clean hrepr
  have hremembers : ({} : Server).Remembers := fun c hc => absurd hc (Nat.not_lt_zero c)
  rw [hclean]
  exact always_iff_steps hremembers clean_empty remembers_arrive
    (fun _ a hmax hk => clean_arrive hk hmax a) as

end Server

end Decoders

/-! ## A value that is no number -/

theorem reprNumbers_plain : letI := PyRepr.plain; ReprNumbers := by
  let := PyRepr.plain
  intro x _
  have hzero : IsDigits (lit "0") := ⟨List.cons_ne_nil _ _, fun p hp => by
    rw [List.mem_singleton.mp hp]
    decide⟩
  have hlit : lit "0.0" = [] ++ lit "0" ++ (cp '.' :: lit "0") ++ [] := rfl
  change IsNumber (lit "0.0")
  rw [hlit]
  exact .mk .none .zero (.frac hzero) .none

/-- An input that writes NaN. -/
def nanInput : PyStr :=
  "\x7b\"v\":1,\"type\":\"input\",\"patches\":[\x7b\"path\":\"__inputs.x\",\"value\":NaN\x7d]\x7d"

/-- What `json.loads` makes of it. -/
def nanValue : Json :=
  .obj (envelope FRAME_INPUT ++
    pair "patches" (.arr [.obj (pair "path" (.str "__inputs.x") ++ pair "value" (.float .nan))]))

/-- An operator. -/
def ada : Identity := { role := some .operator, subject := "ada" }

/-- A kit with one fresh scene. -/
def oneScene : List Arrival := [.call (.newScene "a" "v1" [] true)]

/-- An input of NaN is accepted, and from then on the snapshot of the scene is no JSON text. -/
theorem Server.nanInput_poisons :
    letI := PyRepr.plain
    letI := PyParse.only nanInput nanValue
    let k := run Server.arrive {} oneScene
    let k' := k.arrive (.text 0 ada (.text nanInput))
    (∃ f, decodeClient (.text nanInput) = .ok (.input f) ∧
      (k.objects.get 0).verdict ada f.patches = .ok none) ∧
      ¬ (Frame.snapshot (k'.objects.get 0).snapshotFrame).Readable := by
  let := PyRepr.plain
  let := PyParse.only nanInput nanValue
  intro k k'
  refine ⟨⟨{ patches := [⟨"__inputs.x", .float .nan, none⟩], clientMsgId := .null }, rfl, rfl⟩,
    fun h => ?_⟩
  have hclean := (Frame.readable_iff_clean reprNumbers_plain).mp h
  have hstore : (k'.objects.get 0).store.state.entries
      = [(("__inputs.x" : PyStr), .float .nan)] := rfl
  rw [clean_snapshot, hstore, Bool.and_eq_true] at hclean
  exact absurd hclean.2 (by decide)

/-- The same input with `true` in it. -/
def trueInput : PyStr :=
  "\x7b\"v\":1,\"type\":\"input\",\"patches\":[\x7b\"path\":\"__inputs.x\",\"value\":true\x7d]\x7d"

/-- What `json.loads` makes of it. -/
def trueValue : Json :=
  .obj (envelope FRAME_INPUT ++
    pair "patches" (.arr [.obj (pair "path" (.str "__inputs.x") ++ pair "value" (.bool true))]))

theorem Server.readable_iff_trueInput :
    letI := PyRepr.plain
    letI := PyParse.only trueInput trueValue
    Always Server.arrive (Server.Serves Frame.Readable) {}
      (oneScene ++ [.text 0 ada (.text trueInput)]) := by
  let := PyRepr.plain
  let := PyParse.only trueInput trueValue
  refine (Server.readable_iff reprNumbers_plain _).mpr ?_
  refine steps_cons.mpr ⟨fun op hop => ?_, steps_cons.mpr ⟨fun op hop => ?_, steps_nil⟩⟩
  · cases hop
    exact ⟨rfl, rfl⟩
  · have hinput : inputOf 0 ada (.text trueInput) = some (.scene 0 (.applyInput ada
        [⟨"__inputs.x", .bool true, none⟩] none)) := rfl
    cases hinput.symm.trans hop
    exact fun _ _ => ⟨rfl, rfl⟩

end Lumencast
