import Lumencast.Server.Graft
import Lumencast.Sessions.Line

/-!
# Sessions/Graft — sessions of the kit behind

A session that is served from a kit with something left in front of it does what it would do if
there were nothing (`step?_graft`), and so do its calls (`perform_graft`): all that differs is where
its references point.  A session that is served from what is left changes only that
(`inFront_perform`).
-/

namespace Lumencast

open Machinery

/-! ## Sessions, relocated

A session names a scene and a subscription.  Every function of `handle_ws` is shown to commute
with relocating the two. -/

def Locals.relocate (b : Base) (l : Locals) : Locals where
  scene := b.objects + l.scene
  sub := b.subs + l.sub
  identity := l.identity

def Phase.relocate (b : Base) : Phase → Phase
  | .initial l rest => .initial (l.relocate b) rest
  | .running l ls => .running (l.relocate b) ls
  | .ended sub => .ended (sub.map (b.subs + ·))
  | p => p

def Sent.relocate (b : Base) (x : Sent) : Sent :=
  { x with issuer := x.issuer.map (b.objects + ·) }

def Session.relocate (b : Base) (s : Session) : Session where
  phase := s.phase.relocate b
  written := s.written.map (Sent.relocate b)

def Call.relocate (b : Base) : Call → Call
  | .subscribeWithResume c live since => .subscribeWithResume (b.objects + c) live since
  | .unsubscribe c r => .unsubscribe (b.objects + c) (b.subs + r)
  | .applyInput c identity patches cause => .applyInput (b.objects + c) identity patches cause
  | .dequeue r => .dequeue (b.subs + r)
  | .detach r => .detach (b.subs + r)

/-- What a stretch comes to, relocated. -/
def relocateStretch (b : Base) (a : Option Call × Session) : Option Call × Session :=
  (a.1.map (Call.relocate b), a.2.relocate b)

/-- The references of a call are those of a scene and a subscription of the kit. -/
def Call.Within (k : Server) : Call → Prop
  | .subscribeWithResume c _ _ => c < k.objects.next
  | .unsubscribe c r => c < k.objects.next ∧ r < k.subs.next
  | .applyInput c _ _ _ => c < k.objects.next
  | .dequeue r => r < k.subs.next
  | .detach r => r < k.subs.next

/-- So are those of a session. -/
structure Session.RefsWithin (k : Server) (s : Session) : Prop where
  scene_lt : ∀ l, s.phase.locals? = some l → l.scene < k.objects.next
  sub_lt : ∀ r, s.phase.sub? = some r → r < k.subs.next

namespace Session

variable (b : Base) (s : Session)

/-- What a client was sent does not tell where its kit begins. -/
theorem frames_relocate : (s.relocate b).frames = s.frames := by
  simp [frames, relocate, Function.comp_def, Sent.relocate]

theorem write_relocate (frame : Frame) (issuer : Option SceneRef) (p : Phase) :
    (s.relocate b).write frame (issuer.map (b.objects + ·)) (p.relocate b)
      = (s.write frame issuer p).relocate b := by
  simp [write, relocate, Sent.relocate]

theorem reject_relocate (code : ErrorCode) (message : PyStr) :
    (s.relocate b).reject code message = (s.reject code message).relocate b :=
  s.write_relocate b (errorFrame 0 code message false none) none .rejecting

theorem readSubscribe_relocate (r : Received) :
    (s.relocate b).readSubscribe r = (s.readSubscribe r).relocate b := by
  unfold readSubscribe
  split
  · rfl
  all_goals first | rfl | exact s.reject_relocate b ..

theorem sendInitial_relocate (l : Locals) (rest : List Frame) :
    (s.relocate b).sendInitial (l.relocate b) rest = (s.sendInitial l rest).relocate b := by
  rcases rest with _ | ⟨f, rest⟩
  · rfl
  · exact s.write_relocate b f (some l.scene) (.initial l rest)

end Session

theorem Server.resolveScene_graft {old k : Server} (f : Subscribe) (identity : Identity) :
    (old.graft k).resolveScene f identity
      = (k.resolveScene f identity).map (Except.map (old.objects.next + ·)) := by
  have hget (id : PyStr) : (old.graft k).scenes.get? id
      = (k.scenes.get? id).map (old.objects.next + ·) := Dict.get?_mapValues ..
  rw [resolveScene, resolveScene, activeScene_graft]
  split
  · rcases k.activeScene with _ | c
    · rfl
    · rfl
  · split
    · rfl
    · split
      · rfl
      · split
        · rfl
        · rfl
        · rename_i id _
          rw [hget]
          rcases k.scenes.get? id with _ | c
          · rfl
          · rfl
        · rfl

namespace Session

variable {old k : Server} (s : Session)

theorem letIn_graft (hreg : ∀ c, k.Registered c → c < k.objects.next) (f : Subscribe)
    (identity : Identity) : (s.relocate old.base).letIn (old.graft k) f identity
      = relocateStretch old.base (s.letIn k f identity) := by
  rw [letIn, letIn, Server.resolveScene_graft]
  rcases hres : k.resolveScene f identity with e | ⟨code, message⟩ | c
  · rfl
  · exact Prod.ext rfl (s.reject_relocate old.base code message)
  · have hscene := @Server.scene_graft old k c (hreg c (Server.registered_of_resolveScene hres))
    refine Prod.ext rfl ?_
    simp only [Except.map]
    rw [hscene]
    exact s.sendInitial_relocate old.base ⟨c, k.subs.next, identity⟩ _

theorem authenticate_graft (hreg : ∀ c, k.Registered c → c < k.objects.next) (f : Subscribe)
    (a : Authentication) : (s.relocate old.base).authenticate (old.graft k) f a
      = relocateStretch old.base (s.authenticate k f a) := by
  rcases a with identity | message | _
  · rw [authenticate, authenticate]
    split
    · exact s.letIn_graft hreg f identity
    · exact Prod.ext rfl (s.reject_relocate old.base ..)
  · exact Prod.ext rfl (s.reject_relocate old.base ..)
  · rfl

section Loops

variable {l : Locals} (ls : Loops)

theorem replyError_graft (hl : l.scene < k.objects.next) (code : ErrorCode) (message : PyStr)
    (recoverable : Bool) (path : Option PyStr) (reader : Reader) :
    (s.relocate old.base).replyError (old.graft k) (l.relocate old.base) ls code message
        recoverable path reader
      = (s.replyError k l ls code message recoverable path reader).relocate old.base := by
  have hscene : (old.graft k).objects.get (l.relocate old.base).scene
      = (k.objects.get l.scene).relocate old.base := Server.scene_graft hl
  rw [replyError, replyError, hscene]
  exact s.write_relocate old.base _ none (.running l { ls with reader := reader })

theorem readerSent_relocate (b : Base) (ok : Bool) :
    (s.relocate b).readerSent (l.relocate b) ls ok = (s.readerSent l ls ok).map (relocate b) := by
  unfold readerSent
  rcases ls.reader with _ | _ | _ | _ | _
  all_goals rfl

theorem take_relocate (b : Base) (item : Option Letter) :
    (s.relocate b).take (l.relocate b) ls (item.map (Letter.relocate b))
      = (s.take l ls item).relocate b := by
  rcases item with _ | letter
  · rfl
  · exact s.write_relocate b letter.frame (some letter.issuer)
      (.running l { ls with writer := .sending })

variable [PyRepr]

theorem input_graft (hk : k.Contained) (hl : l.scene < k.objects.next) (f : Input) :
    (s.relocate old.base).input (old.graft k) (l.relocate old.base) ls f
      = relocateStretch old.base (s.input k l ls f) := by
  have hscene : (old.graft k).objects.get (l.relocate old.base).scene
      = (k.objects.get l.scene).relocate old.base := Server.scene_graft hl
  have happly := @Scene.applyInput_relocate old (k.objects.get l.scene) k.subs (hk.owned_lt l.scene)
    l.identity f.patches (causeOf l.identity f.clientMsgId)
  have hidentity : (l.relocate old.base).identity = l.identity := rfl
  rw [input, input, hscene, hidentity]
  refine Prod.ext rfl ?_
  dsimp only [relocateStretch]
  rw [show (old.graft k).subs = old.behind k.subs from rfl, happly]
  rcases (k.objects.get l.scene).applyInput k.subs l.identity f.patches
    (causeOf l.identity f.clientMsgId) with e | ⟨_ | refusal, st⟩
  · rfl
  · rfl
  · exact s.replyError_graft ls hl ..

theorem receive_graft (hk : k.Contained) (hl : l.scene < k.objects.next) (r : Received) :
    (s.relocate old.base).receive (old.graft k) (l.relocate old.base) ls r
      = relocateStretch old.base (s.receive k l ls r) := by
  rcases r with f | message | message | message
  · rcases f with f | f | f | f | nonce | nonce | f | f | _
    case input => exact s.input_graft ls hk hl f
    case ping =>
      exact Prod.ext rfl
        (s.write_relocate old.base _ none (.running l { ls with reader := .sending }))
    case subscribe => exact Prod.ext rfl (s.replyError_graft ls hl ..)
    all_goals rfl
  · exact Prod.ext rfl (s.replyError_graft ls hl ..)
  · exact Prod.ext rfl (s.replyError_graft ls hl ..)
  · rfl

theorem loop_graft (hk : k.Contained) (hscene : l.scene < k.objects.next)
    (hsub : l.sub < k.subs.next) (e : SessionEvent) :
    (s.relocate old.base).loop (old.graft k) (l.relocate old.base) ls e
      = (s.loop k l ls e).map (relocateStretch old.base) := by
  have hget : (old.graft k).subs.get (l.relocate old.base).sub
      = (k.subs.get l.sub).relocate old.base := Heap.get_graft hsub
  cases e with
  | received r =>
    rw [loop, loop]
    split
    · exact congrArg some (s.receive_graft ls hk hscene r)
    · rfl
  | readerSent ok =>
    rw [loop, loop, readerSent_relocate]
    rcases s.readerSent l ls ok with _ | s'
    · rfl
    · rfl
  | dequeued =>
    rw [loop, loop, hget, Subscription.dequeue_relocate]
    split
    · rcases (k.subs.get l.sub).dequeue with _ | ⟨item, sub⟩
      · rfl
      · exact congrArg some (Prod.ext rfl (s.take_relocate ls old.base item))
    · rfl
  | pingDue =>
    rw [loop, loop]
    split
    · exact congrArg some (Prod.ext rfl
        (s.write_relocate old.base _ none (.running l { ls with writer := .sending })))
    · rfl
  | writerSent ok =>
    rw [loop, loop]
    split
    · rcases ok with _ | _
      · rfl
      · rfl
    · rfl
  | gathered =>
    rw [loop, loop]
    split
    · rfl
    · rfl
  | _ => rfl

end Loops

theorem afterSend_relocate (b : Base) {next failed : Phase} (hnext : next.relocate b = next)
    (hfailed : failed.relocate b = failed) (e : SessionEvent) :
    (s.relocate b).afterSend next failed e
      = (s.afterSend next failed e).map (relocateStretch b) := by
  cases e with
  | sent ok =>
    have hgoto (p : Phase) (hp : p.relocate b = p) :
        (s.relocate b).goto p = (s.goto p).relocate b := by
      conv_lhs => rw [← hp]
      rfl
    rcases ok with _ | _
    · exact congrArg some (Prod.ext rfl (hgoto failed hfailed))
    · exact congrArg some (Prod.ext rfl (hgoto next hnext))
  | _ => rfl

variable [PyRepr]

/-- **A session does behind what it does in front**: whatever wakes it up, it makes the same call
and writes the same frames. -/
theorem step?_graft (hk : k.Contained) (hreg : ∀ c, k.Registered c → c < k.objects.next)
    (hs : s.RefsWithin k) (e : SessionEvent) : (s.relocate old.base).step? (old.graft k) e
      = (s.step? k e).map (relocateStretch old.base) := by
  obtain ⟨phase, written⟩ := s
  cases phase with
  | running l ls => exact loop_graft _ ls hk (hs.scene_lt l rfl) (hs.sub_lt l.sub rfl) e
  | initial l rest =>
    cases e with
    | sent ok =>
      rcases ok with _ | _
      · rfl
      · exact congrArg some (Prod.ext rfl (sendInitial_relocate old.base _ l rest))
    | _ => rfl
  | reading =>
    cases e with
    | received r => exact congrArg some (Prod.ext rfl (readSubscribe_relocate old.base _ r))
    | cancelled => exact congrArg some (Prod.ext rfl (reject_relocate old.base _ ..))
    | _ => rfl
  | authenticating f =>
    cases e with
    | authenticated a => exact congrArg some (authenticate_graft _ hreg f a)
    | _ => rfl
  | ended sub => rfl
  | _ => exact afterSend_relocate _ old.base rfl rfl e

end Session

/-! ## The calls of a session -/

namespace Server

variable {old k : Server}

theorem step_scene_graft {c : SceneRef} (hc : c < k.objects.next) {op op' : SceneOp}
    (h : Scene.step (old.relocated (k.objects.get c, k.subs)) op'
      = old.relocated (Scene.step (k.objects.get c, k.subs) op)) :
    (old.graft k).step (.scene (old.objects.next + c) op') = old.graft (k.step (.scene c op)) := by
  have hc' : old.objects.next + c < (old.graft k).objects.next := Nat.add_lt_add_left hc _
  rw [step, step, if_pos hc, if_pos hc']
  exact @onScene_graft old k c hc (Scene.step · op) (Scene.step · op') h

/-- **A call of a session that is served behind** is the same call on the kit behind. -/
theorem perform_graft (hk : k.Contained) (hreg : ∀ c, k.Registered c → c < k.objects.next)
    {call : Call} (hcall : call.Within k) :
    (old.graft k).step (call.relocate old.base).op = old.graft (k.step call.op) := by
  cases call with
  | subscribeWithResume c live since =>
    refine step_scene_graft hcall ?_
    exact congrArg (·.2.2) (Scene.subscribeWithResume_relocate live since)
  | unsubscribe c r =>
    obtain ⟨hc, hr⟩ := hcall
    have hr' : old.subs.next + r < (old.graft k).subs.next := Nat.add_lt_add_left hr _
    refine step_scene_graft hc ?_
    rw [Scene.step, Scene.step, if_pos hr]
    exact (if_pos hr').trans (Scene.unsubscribe_relocate hr)
  | applyInput c identity patches cause =>
    refine step_scene_graft hcall ?_
    have happly := @Scene.applyInput_relocate old (k.objects.get c) k.subs (hk.owned_lt c) identity
      patches cause
    rw [Scene.step, Scene.step, relocated, happly]
    rcases (k.objects.get c).applyInput k.subs identity patches cause with e | a
    · rfl
    · rfl
  | dequeue r => exact dequeue_graft hcall
  | detach r =>
    have hr : r < k.subs.next := hcall
    have hr' : old.subs.next + r < (old.graft k).subs.next := Nat.add_lt_add_left hr _
    rw [Call.op, step, if_pos hr]
    exact (if_pos hr').trans (detach_graft hreg hr)

/-- **A call of a session that is served from what is left** changes only that. -/
theorem inFront_perform (hold : old.Contained) (hreg : ∀ c, k.Registered c → c < k.objects.next)
    {call : Call} (hcall : call.Within old) (hnew : ∀ c live since,
      call ≠ .subscribeWithResume c live since) : InFront old k ((old.graft k).step call.op) := by
  cases call with
  | subscribeWithResume c live since => exact absurd rfl (hnew c live since)
  | unsubscribe c r =>
    obtain ⟨hc, hr⟩ := hcall
    have hc' : c < (old.graft k).objects.next := hc.trans_le (Nat.le_add_right ..)
    have hr' : r < (old.graft k).subs.next := hr.trans_le (Nat.le_add_right ..)
    rw [Call.op, step, if_pos hc', onScene_unsubscribe c hr']
    exact inFront_unsubscribe hold hc hr
  | applyInput c identity patches cause =>
    have hc' : c < (old.graft k).objects.next := hcall.trans_le (Nat.le_add_right ..)
    rw [Call.op, step, if_pos hc']
    exact inFront_applyInput hold hcall identity patches cause
  | dequeue r => exact inFront_dequeue hold hcall
  | detach r =>
    have hr' : r < (old.graft k).subs.next := hcall.trans_le (Nat.le_add_right ..)
    rw [Call.op, step, if_pos hr']
    exact inFront_detach hold hreg hcall

end Server

/-! ## Two worlds side by side

The sessions in `out` belong to what is left, and all the others are sessions of the other world,
relocated.  A step of either kind leaves the two worlds beside each other. -/

namespace Session

variable {k K : Server} {s s' : Session} {e : SessionEvent}

/-- What a session calls on the kit: it attaches to a registered scene, or its call is about what it
holds already. -/
theorem Did.call_cases {call : Call} (h : Did k s e (some call) s') (hs : s.RefsWithin K) :
    (s.phase.sub? = none ∧ ∃ c live since, call = .subscribeWithResume c live since ∧
      k.Registered c) ∨
    (call.Within K ∧ ∀ c live since, call ≠ .subscribeWithResume c live since) := by
  generalize hcall : some call = a at h
  rcases h with _ | _ | @⟨f, identity, c, hphase, -, hscene⟩ | @⟨l, rest, hphase⟩ |
    @⟨l, ls, ls', f, s', hphase, -, -⟩ | @⟨l, ls, item, sub, hphase, -⟩ | @⟨l, ls, hphase⟩
  case idle => cases hcall
  case abandon => cases hcall
  case attach =>
    cases hcall
    exact Or.inl ⟨by rw [hphase]; rfl, c, _, _, rfl, Server.registered_of_resolveScene hscene⟩
  case fail =>
    cases hcall
    exact Or.inr ⟨⟨hs.scene_lt l (by rw [hphase]; rfl), hs.sub_lt l.sub (by rw [hphase]; rfl)⟩,
      fun _ _ _ h => by cases h⟩
  case input =>
    cases hcall
    exact Or.inr ⟨hs.scene_lt l (by rw [hphase]; rfl), fun _ _ _ h => by cases h⟩
  case dequeue =>
    cases hcall
    exact Or.inr ⟨hs.sub_lt l.sub (by rw [hphase]; rfl), fun _ _ _ h => by cases h⟩
  case detach =>
    cases hcall
    exact Or.inr ⟨hs.sub_lt l.sub (by rw [hphase]; rfl), fun _ _ _ h => by cases h⟩

/-- A session that holds something keeps it, and gets nothing else. -/
theorem Did.keeps {call : Option Call} (h : Did k s e call s') (hs : s.RefsWithin K)
    (hsub : s.phase.sub? ≠ none) : s'.RefsWithin K ∧ s'.phase.sub? ≠ none := by
  rcases h.kept_or_attached with ⟨hsame, hkept⟩ | ⟨f, identity, c, hphase, -, -, -⟩
  · exact ⟨⟨fun l hl => hs.scene_lt l (hkept l hl), fun r hr => hs.sub_lt r (hsame ▸ hr)⟩,
      hsame ▸ hsub⟩
  · exact absurd (by rw [hphase]; rfl) hsub

theorem connecting_relocate (b : Base) (requested : List PyStr) :
    (connecting requested).relocate b = connecting requested := by
  simp only [connecting, relocate]
  split <;> rfl

end Session

namespace World

/-- The world `w` is `w'` with `old` in front of it, to which the sessions `out` belong. -/
structure Beside (out : ℕ → Prop) (old : Server) (w w' : World) : Prop where
  contained : old.Contained
  kit : w.kit = old.graft w'.kit
  wf : w'.Wf
  retires : w'.kit.Retires
  next : w.sessions.next = w'.sessions.next
  inside : ∀ i, ¬ out i → w.sessions.get i = (w'.sessions.get i).relocate old.base
  gone : ∀ i, out i → (w'.sessions.get i).phase = .ended none
  refs : ∀ i, out i → (w.sessions.get i).RefsWithin old
  has_sub : ∀ i, out i → (w.sessions.get i).phase.sub? ≠ none
  out_lt : ∀ i, out i → i < w.sessions.next

variable {out : ℕ → Prop} {old : Server} {w w' : World}

theorem Beside.kit_contained (h : Beside out old w w') : w'.kit.Contained :=
  ⟨h.wf.kit.owned_lt, h.retires.tasks_lt⟩

/-- What is left ages. -/
theorem Beside.age {old' : Server} {k : Server} (h : Beside out old w w')
    (hkit : k = old'.graft w'.kit) (hbase : old'.base = old.base) (hold' : old'.Contained) :
    Beside out old' { w with kit := k } w' where
  contained := hold'
  kit := hkit
  wf := h.wf
  retires := h.retires
  next := h.next
  inside i hi := by
    rw [hbase]
    exact h.inside i hi
  gone := h.gone
  refs i hi := by
    have hobjects : old'.objects.next = old.objects.next := congrArg Base.objects hbase
    have hsubs : old'.subs.next = old.subs.next := congrArg Base.subs hbase
    exact ⟨fun l hl => hobjects ▸ (h.refs i hi).scene_lt l hl,
      fun r hr => hsubs ▸ (h.refs i hi).sub_lt r hr⟩
  has_sub := h.has_sub
  out_lt := h.out_lt

variable [PyRepr]

theorem Beside.connect (h : Beside out old w w') (requested : List PyStr) :
    Beside out old (w.step (.connect requested)) (w'.step (.connect requested)) := by
  have hlt : ∀ {i}, out i → i ≠ w.sessions.next := fun hi => (h.out_lt _ hi).ne
  have hsame : ∀ {i}, i ≠ w.sessions.next →
      (w.step (.connect requested)).sessions.get i = w.sessions.get i :=
    fun hi => Heap.get_alloc_of_ne _ _ hi
  have hsame' : ∀ {i}, i ≠ w.sessions.next →
      (w'.step (.connect requested)).sessions.get i = w'.sessions.get i :=
    fun hi => Heap.get_alloc_of_ne _ _ (h.next ▸ hi)
  refine ⟨h.contained, h.kit, wf_step w' _ h.wf, h.retires, congrArg (· + 1) h.next,
    fun i hi => ?_, fun i hi => ?_, fun i hi => ?_, fun i hi => ?_,
    fun i hi => (h.out_lt i hi).trans (Nat.lt_succ_self _)⟩
  · by_cases hnext : i = w.sessions.next
    · have hfresh : (w.step (.connect requested)).sessions.get i = .connecting requested := by
        rw [hnext]
        exact Heap.get_alloc_next ..
      have hfresh' : (w'.step (.connect requested)).sessions.get i = .connecting requested := by
        rw [hnext, h.next]
        exact Heap.get_alloc_next ..
      rw [hfresh, hfresh', Session.connecting_relocate]
    · rw [hsame hnext, hsame' hnext]
      exact h.inside i hi
  · rw [hsame' (hlt hi)]
    exact h.gone i hi
  · rw [hsame (hlt hi)]
    exact h.refs i hi
  · rw [hsame (hlt hi)]
    exact h.has_sub i hi

/-- A session that belongs to what is left changes only that. -/
theorem Beside.session_out (h : Beside out old w w') {i : ℕ} (hi : out i) (e : SessionEvent) :
    ∃ old', Beside out old' (w.step (.session i e)) w' ∧ old'.tasks = old.tasks := by
  rcases hstep : (w.sessions.get i).step? w.kit e with _ | ⟨call, s⟩
  · exact ⟨old, by rwa [step, hstep], rfl⟩
  · have hdid := Session.did hstep
    obtain ⟨hrefs, hsub⟩ := hdid.keeps (h.refs i hi) (h.has_sub i hi)
    have hfront : Server.InFront old w'.kit (w.kit.perform call) := by
      rw [h.kit]
      rcases call with _ | call
      · exact ⟨old, rfl, rfl, rfl, h.contained⟩
      -- it has its subscription, so it does not attach to what is registered now
      · rcases hdid.call_cases (h.refs i hi) with ⟨hnone, -⟩ | ⟨hcall, hnew⟩
        · exact absurd hnone (h.has_sub i hi)
        · exact Server.inFront_perform h.contained h.wf.kit.registered_lt hcall hnew
    obtain ⟨old', hkit, hbase, htasks, hold'⟩ := hfront
    have hmoved : Beside out old { w with sessions := w.sessions.modify i fun _ => s } w' := by
      refine ⟨h.contained, h.kit, h.wf, h.retires, h.next, fun j hj => ?_, h.gone, fun j hj => ?_,
        fun j hj => ?_, h.out_lt⟩
      · have hne : j ≠ i := fun hji => hj (hji ▸ hi)
        rw [Heap.get_modify_of_ne w.sessions _ hne]
        exact h.inside j hj
      · rw [Heap.get_modify]
        split
        · exact hrefs
        · exact h.refs j hj
      · rw [Heap.get_modify]
        split
        · exact hsub
        · exact h.has_sub j hj
    rw [step_session hstep]
    exact ⟨old', hmoved.age hkit hbase hold', htasks⟩

/-- Any other session does the same in both worlds. -/
theorem Beside.session_in (h : Beside out old w w') {i : ℕ} (hi : ¬ out i) (e : SessionEvent) :
    Beside out old (w.step (.session i e)) (w'.step (.session i e)) := by
  have hreg := h.wf.kit.registered_lt
  have hrefs : (w'.sessions.get i).RefsWithin w'.kit := ⟨h.wf.scene_lt i, h.wf.sub_lt i⟩
  have hsame := @Session.step?_graft old w'.kit (w'.sessions.get i) _ h.kit_contained hreg hrefs e
  rw [← h.inside i hi, ← h.kit] at hsame
  rcases hstep : (w'.sessions.get i).step? w'.kit e with _ | ⟨call, s⟩
  · rw [hstep, Option.map_none] at hsame
    rwa [step, step, hstep, hsame]
  · rw [hstep, Option.map_some] at hsame
    have hperform : w.kit.perform (call.map (Call.relocate old.base))
        = old.graft (w'.kit.perform call) := by
      rw [h.kit]
      rcases call with _ | call
      · rfl
      · refine Server.perform_graft h.kit_contained hreg ?_
        rcases (Session.did hstep).call_cases hrefs with ⟨-, c, live, since, rfl, hc⟩ | ⟨hcall, -⟩
        · exact hreg c hc
        · exact hcall
    have hretires : (w'.step (.session i e)).kit.Retires := by
      rw [kit_step]
      split
      · exact h.retires
      · exact h.retires.step h.wf.kit _
    have hwf := wf_step w' (.session i e) h.wf
    have hne : ∀ {j}, out j → j ≠ i := fun hj hji => hi (hji ▸ hj)
    rw [step_session hstep] at hretires hwf
    rw [step_session hsame, step_session hstep]
    refine ⟨h.contained, hperform, hwf, hretires, h.next, fun j hj => ?_, fun j hj => ?_,
      fun j hj => ?_, fun j hj => ?_, h.out_lt⟩
    · rw [Heap.get_modify, Heap.get_modify]
      split
      · rfl
      · exact h.inside j hj
    all_goals rw [Heap.get_modify_of_ne _ _ (hne hj)]
    · exact h.gone j hj
    · exact h.refs j hj
    · exact h.has_sub j hj

/-- **A wakeup keeps the two apart.** -/
theorem Beside.session (h : Beside out old w w') (i : ℕ) (e : SessionEvent) :
    ∃ old', Beside out old' (w.step (.session i e)) (w'.step (.session i e)) ∧
      old'.tasks = old.tasks := by
  by_cases hi : out i
  · have hstay : w'.step (.session i e) = w' := by
      rw [step, Session.step?_ended (h.gone i hi)]
    rw [hstay]
    exact h.session_out hi e
  · exact ⟨old, h.session_in hi e, rfl⟩

/-- The loop runs a scheduled reset: one of those that are left, as long as there is one. -/
theorem Beside.task (h : Beside out old w w') : ∃ old', old'.tasks = old.tasks.tail ∧
    Beside out old' (w.step (.trusted .runTask))
      (if old.tasks = [] then w'.step (.trusted .runTask) else w') := by
  rcases htasks : old.tasks with _ | ⟨c, rest⟩
  · refine ⟨old, htasks, ?_⟩
    rw [if_pos rfl]
    refine ⟨h.contained, ?_, wf_step w' _ h.wf, h.retires.step h.wf.kit .runTask, h.next, h.inside,
      h.gone, h.refs, h.has_sub, h.out_lt⟩
    change w.kit.runTask = old.graft w'.kit.runTask
    rw [h.kit]
    exact Server.runTask_graft h.kit_contained htasks
  · obtain ⟨old', hkit, hbase, htasks', hold'⟩ :=
      @Server.inFront_runTask old w'.kit h.contained c rest htasks
    rw [if_neg (List.cons_ne_nil c rest)]
    refine ⟨old', htasks', h.age ?_ hbase hold'⟩
    change w.kit.runTask = _
    rw [h.kit]
    exact hkit

end World

end Lumencast
