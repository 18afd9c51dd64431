import Lumencast.Sessions.Inputs
import Lumencast.Sessions.Ledger

/-!
# Sessions/Provenance — who a delta says it comes from

`_dispatch` gives the delta of a tagged input a cause: the tag, and the name of the one who sent it.
The tag comes back as it was sent, to every subscriber and to every client that resumes.  The name
does not: an f-string shows a member of `Role` as `Role.OPERATOR`, where the wire says `operator`
(`not_echoes`).
-/

namespace Lumencast

open Machinery

/-- The name a delta is to give of the one behind it. -/
def Identity.provenance (identity : Identity) : Option PyStr :=
  identity.role.map fun role => role.value ++ ":" ++ identity.subject

/-- A role shown by an f-string is not its wire name, whatever follows the two. -/
theorem memberName_append_ne (role : Role) (s s' : PyStr) :
    role.memberName ++ ":" ++ s ≠ role.value ++ ":" ++ s' := by
  have hfirst : ∀ {c c' : Char}, some (CodePoint.ofChar c) = some (CodePoint.ofChar c') →
      CodePoint.ofChar c ≠ CodePoint.ofChar c' → False := fun h hne => hne (Option.some.inj h)
  intro h
  have hhead : (role.memberName ++ ":" ++ s).points.head? = (role.value ++ ":" ++ s').points.head? :=
    congrArg (fun p => p.points.head?) h
  cases role with
  | viewer => exact @hfirst 'R' 'v' hhead (by decide)
  | operator => exact @hfirst 'R' 'o' hhead (by decide)
  | service => exact @hfirst 'R' 's' hhead (by decide)
  | test => exact @hfirst 'R' 't' hhead (by decide)

/-- Who may write has a role. -/
theorem exists_role_of_verdict {sc : Scene} {identity : Identity} {patches : List Patch}
    (h : sc.verdict identity patches = .ok none) : ∃ role, identity.role = some role := by
  rcases patches with _ | ⟨p, ps⟩
  · cases h
  · have hwrite := Scene.canWrite_of_verdict h p List.mem_cons_self
    rw [Identity.canWrite] at hwrite
    rcases hrole : identity.role with _ | role
    · rw [hrole] at hwrite
      cases hwrite
    · exact ⟨role, rfl⟩

section Reading

variable [PyRepr] [PyParse]

/-- Reading the text of `d`, a client learns that it comes from the input of `identity` that was
tagged `m`. -/
def Echoes (identity : Identity) (m : PyStr) (d : Delta) : Prop :=
  ∃ read cause, decodeServer (.text (encode (.delta d))) = .ok (.frame (.delta read)) ∧
    read.cause = some cause ∧ cause.inputId = .str m ∧ identity.provenance = some cause.source

/-- The text of a delta that has no timestamp is read as the delta. -/
theorem decodeServer_delta {d : Delta} (hts : d.ts = .str "")
    (hloads : PyParse.loads (encode (.delta d)) = .ok (.obj (frameToDict (.delta d)))) :
    decodeServer (.text (encode (.delta d))) = .ok (.frame (.delta d)) :=
  decodeServer_of_loads (Or.inr hts) rfl hloads

/-- The cause of a tagged input does not give the sender's name. -/
theorem not_echoes_of_cause {identity : Identity} {m : PyStr} {d : Delta}
    (hcause : d.cause = causeOf identity (.str m))
    (hread : decodeServer (.text (encode (.delta d))) = .ok (.frame (.delta d))) :
    ¬ Echoes identity m d := by
  rintro ⟨read, cause, hread', hcause', -, hname⟩
  cases hread.symm.trans hread'
  cases hcause.symm.trans hcause'
  rw [Identity.provenance] at hname
  rcases hrole : identity.role with _ | role
  · rw [hrole] at hname
    cases hname
  · rw [hrole, Option.map_some, Option.some.injEq] at hname
    exact memberName_append_ne role _ _ hname.symm

end Reading

namespace World

variable [PyRepr]

/-- **An accepted input is one emission**, with the cause made for it. -/
theorem emits_of_accepts {w : World} (hwf : w.Wf) {e : Event} {l : Locals} {f : Input}
    (h : w.Accepts e l f) : w.Emits e l.scene ((w.kit.objects.get l.scene).nextDelta
      (Scene.asDict f.patches) (causeOf l.identity f.clientMsgId)) := by
  obtain ⟨hop, hverdict⟩ := opOf_of_accepts h
  obtain ⟨i, ls, -, hphase, -⟩ := h
  have hc : l.scene < w.kit.objects.next := hwf.scene_lt i l (by rw [hphase]; rfl)
  refine ⟨_, _, ?_, rfl⟩
  rw [hop, Option.map_some, Server.act, if_pos hc, Scene.act, hverdict]

variable [PyParse]

/-- **No copy of a tagged input's delta gives the sender's name.**  There are copies, from the event
on.  Each is read with the tag as it was sent, but names the role as an f-string does; and a copy
with any other number is another emission's, with the cause that one was given. -/
theorem not_echoes {pre : List Event} {e : Event} {l : Locals} {f : Input} {m : PyStr}
    (haccepts : (after pre).Accepts e l f) (hm : f.clientMsgId = .str m) :
    (∃ d, (after (pre ++ [e])).Held l.scene d ∧
      d.seq = ((after pre).kit.objects.get l.scene).currentSeq + 1) ∧
    ∀ (post : List Event) (d : Delta), (after (pre ++ e :: post)).Held l.scene d →
      PyParse.loads (encode (.delta d)) = .ok (.obj (frameToDict (.delta d))) →
      (d.seq = ((after pre).kit.objects.get l.scene).currentSeq + 1 →
        ¬ Echoes l.identity m d ∧
        decodeServer (.text (encode (.delta d))) = .ok (.frame (.delta d)) ∧
        ∃ role, l.identity.role = some role ∧ d.cause = some
          { source := role.memberName ++ ":" ++
              if l.identity.subject = "" then role.memberName else l.identity.subject,
            inputId := .str m }) ∧
      (d.seq ≠ ((after pre).kit.objects.get l.scene).currentSeq + 1 →
        ∃ pre' e' post', pre ++ e :: post = pre' ++ e' :: post' ∧ pre' ≠ pre ∧
          (after pre').Emits e' l.scene d) := by
  have hemits := emits_of_accepts (wf_after pre) haccepts
  refine ⟨⟨_, held_of_emits hemits, rfl⟩, fun post d hd hloads => ?_⟩
  obtain ⟨pre', e', post', hsplit, hemits'⟩ := emitted_of_held hd
  refine ⟨fun hseq => ?_, fun hseq => ⟨pre', e', post', hsplit, ?_, hemits'⟩⟩
  · obtain ⟨-, -, rfl⟩ := emits_unique hsplit rfl hemits' hemits hseq
    have hread := decodeServer_delta rfl hloads
    rw [hm] at hread ⊢
    obtain ⟨role, hrole⟩ := exists_role_of_verdict (opOf_of_accepts haccepts).2
    have hcause : causeOf l.identity (.str m) = some
        { source := role.memberName ++ ":" ++
            if l.identity.subject = "" then role.memberName else l.identity.subject,
          inputId := .str m } := by
      simp only [causeOf, hrole, roleText]
    exact ⟨not_echoes_of_cause rfl hread, hread, role, hrole, hcause⟩
  · rintro rfl
    have hcons := List.append_cancel_left hsplit
    cases hcons
    rw [hemits'.unique hemits] at hseq
    exact hseq rfl

end World

/-! ## Ada's input

The f-string in `_dispatch` gets a member of a class that is a `str` and an `Enum`, and shows it
by the name of the member. -/

namespace World

/-- An operator named Ada attaches, and another client beside her. -/
def adaRun : List Event :=
  [.trusted (.newScene "a" "v1" [] true), .connect ["lsdp.v1"], .session 0 (.sent true),
    .session 0 (.received (.frame (.subscribe { token := .str "t" }))),
    .session 0 (.authenticated (.identity { subject := "ada", role := some .operator })),
    .session 0 (.sent true)]

/-- Her input, tagged. -/
def adaInput : Input := { patches := [⟨"__inputs.x", .int 1, none⟩], clientMsgId := .str "m1" }

/-- What the scene makes of it. -/
def adaDelta : Delta :=
  { patches := [⟨"__inputs.x", .int 1, none⟩], seq := 2
    cause := some { source := "Role.OPERATOR:ada", inputId := .str "m1" } }

/-- The locals of her session. -/
def adaLocals : Locals := ⟨0, 0, { subject := "ada", role := some .operator }⟩

end World

namespace World

/-- The event of her input. -/
abbrev adaEvent : Event := .session 0 (.received (.frame (.input adaInput)))

theorem accepts_ada : Accepts (@after .plain adaRun) adaEvent adaLocals adaInput :=
  ⟨0, {}, rfl, rfl, rfl, rfl⟩

theorem held_ada : Held (@after .plain (adaRun ++ [adaEvent])) 0 adaDelta := by
  have hqueue : ((@after .plain (adaRun ++ [adaEvent])).kit.subs.get 0).queue.items
      = [some ⟨.delta adaDelta, 0, .ofList [("__inputs.x", .int 1)]⟩] := rfl
  exact .queue (hqueue ▸ List.mem_cons_self) rfl rfl

/-- **Ada's input comes back under another name**: the delta in her own queue is read with the tag
`m1` and the name `Role.OPERATOR:ada`, where `operator:ada` sent it. -/
theorem ada_misnamed :
    letI := PyRepr.plain
    letI := PyParse.only (encode (.delta adaDelta)) (.obj (frameToDict (.delta adaDelta)))
    Accepts (after adaRun) adaEvent adaLocals adaInput ∧
      Held (after (adaRun ++ [adaEvent])) 0 adaDelta ∧
      decodeServer (.text (encode (.delta adaDelta))) = .ok (.frame (.delta adaDelta)) ∧
      adaLocals.identity.provenance = some "operator:ada" ∧
      ¬ Echoes adaLocals.identity "m1" adaDelta := by
  let := PyRepr.plain
  let := PyParse.only (encode (.delta adaDelta)) (.obj (frameToDict (.delta adaDelta)))
  have hread : decodeServer (.text (encode (.delta adaDelta))) = .ok (.frame (.delta adaDelta)) :=
    decodeServer_delta rfl (PyParse.loads_only ..)
  exact ⟨accepts_ada, held_ada, hread, rfl, not_echoes_of_cause rfl hread⟩

theorem not_echoes_ada :
    letI := PyRepr.plain
    letI := PyParse.only (encode (.delta adaDelta)) (.obj (frameToDict (.delta adaDelta)))
    ¬ Echoes adaLocals.identity "m1" adaDelta ∧ adaDelta.cause
      = some { source := "Role.OPERATOR:ada", inputId := .str "m1" } := by
  let := PyRepr.plain
  let := PyParse.only (encode (.delta adaDelta)) (.obj (frameToDict (.delta adaDelta)))
  have hada := ((not_echoes accepts_ada rfl).2 [] adaDelta held_ada (PyParse.loads_only ..)).1 rfl
  obtain ⟨hnot, -, role, hrole, hcause⟩ := hada
  cases hrole
  exact ⟨hnot, hcause⟩

end World

end Lumencast
