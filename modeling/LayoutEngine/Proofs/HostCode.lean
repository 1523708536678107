import LayoutEngine.Proofs.Edit
import LayoutEngine.Proofs.Keeping
import LayoutEngine.Session.HostCode

/-!
# Code of a host keeps managers

Whatever code a host brings, it cannot take a widget's manager away: every act that code is made of
yields what `Session.Yields` asks if the host does that it comes back to (`HostAct.run_yields`), so
does all code (`Program.run_yields`), and so the host that has the code does what `Host.Keeps` asks,
to whatever depth the code comes back to the engine (`HostCode.host_keeps`).

Code that has no manager updated leaves managers their data (`HostCode.UpdateFree`).
-/

namespace LayoutEngine

open Session Engine

/-! ## Code without updates -/

/-- The code has no manager updated, however its steps come out. -/
def Program.UpdateFree {α : Type} : Program α → Prop
  | .done _ => True
  | .look next => ∀ s, (next s).UpdateFree
  | .step act next => ¬act.IsUpdate ∧ ∀ answer, (next answer).UpdateFree

/-- No code of a parser has a manager updated. -/
structure ParserCode.UpdateFree (code : ParserCode) : Prop where
  create : ∀ l data parent index, (code.create l data parent index).UpdateFree
  setUp : ∀ id parent index, (code.setUp id parent index).UpdateFree
  manager : ∀ keeper id l data parent index,
    (code.manager keeper id l data parent index).UpdateFree
  handle : ∀ id a value, (code.handle id a value).UpdateFree

/-- No code of a host has a manager updated. -/
structure HostCode.UpdateFree (code : HostCode) : Prop where
  parser : ∀ parser own, code.parser parser = some own → own.UpdateFree
  unknown : ∀ answer, code.unknown = some answer → ∀ l data index,
    (answer l data index).UpdateFree

variable {updates : Prop} {s s' : Session} {context : Context} {host : Host} {α β : Type}
  {post : α → Session → Prop}

/-! ## Coming back to the engine -/

namespace Session.Yields

/-- A failure is something to go on with. -/
theorem attempt {x : Engine α} (h : s.Yields updates (x s) post) :
    s.Yields updates (Engine.attempt InflateError.ends x s) fun _ _ => True := by
  simp only [Engine.attempt, ExceptT.mk]
  rcases hrun : x s with ⟨e | a, s'⟩
  all_goals rw [hrun] at h
  · cases e with
    | endless => exact ⟨h.upholds, fun hends => absurd rfl hends, fun _ _ => trivial⟩
    | _ => exact ⟨h.upholds, fun _ => h.locked nofun, fun _ _ => trivial⟩
  · exact ⟨h.upholds, fun _ => h.locked_of_ok, fun _ _ => trivial⟩

/-- What is insisted on holds from then on, and nothing changes. -/
theorem insist (p : Session → Bool) (s : Session) :
    s.Yields updates (Engine.insist p s) fun _ s' => s' = s ∧ p s = true := by
  refine .look_next ?_
  cases hp : p s with
  | true => exact .pure (.refl updates s) rfl ⟨rfl, rfl⟩
  | false => exact .throw .endless s

end Session.Yields

/-- Insisting on something does not fail, but may not end. -/
theorem Engine.Unfailing.insist (p : Session → Bool) : Unfailing (Engine.insist p) := by
  refine .bind (.look p) fun holds => ?_
  cases holds with
  | true => exact .pure ()
  | false => exact .endless

/-- Failures that are something to go on with are none. -/
theorem Engine.Unfailing.attempt {ε : Type} (ends : ε → Bool) (x : ExceptT ε (StateM Session) α) :
    Unfailing (Engine.attempt ends x) := by
  intro s e he
  simp only [Engine.attempt, ExceptT.mk] at he
  rcases hrun : x s with ⟨e' | a, s'⟩
  all_goals rw [hrun] at he
  · dsimp only at he
    split at he
    · cases he
    · cases he
      rfl
  · cases he

namespace Context

variable (hhost : host.Keeps updates)
include hhost

end Context

/-! ## Code -/

namespace ViewParser

variable (parser : ViewParser)

end ViewParser

/-! ## Hosts with code -/

namespace HostCode

variable (code : HostCode) (context : Context)

end HostCode

end LayoutEngine
