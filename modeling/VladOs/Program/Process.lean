import VladOs.Machine.Simulation
import VladOs.Program.Compiled

namespace VladOs

open Amd64 Build Stuttering Projection Transition Paging Code Kernel ProcessTable

def spoken (outputs : List (List UInt8)) : List (List UInt8) := outputs.filter (!·.isEmpty)

section

variable (w : Hardware) (base : ℕ) (script : List Command) (pid : ProcessId)

abbrev InStep : ℕ → PrivateMachine → PrivateMachine → Prop :=
  Within (PrivateMachine.Step (w.script base script) pid) (PrivateMachine.Ends (w.script base script))
    (PrivateMachine.Step w.amd64 pid) (PrivateMachine.Ends w.amd64) Activity.isCompute (Linked script base)

inductive Obeys (i : ℕ) (l : PrivateMachine) (m : SharedMachine) (events : List Observation) : Prop where
  | alive {acts : List Activity} {l₁ l' : PrivateMachine} {n : ℕ} :
      Runs (· = l) (PrivateMachine.Step (w.script base script) pid) acts l₁ →
      spoken (acts.map Activity.console) = spoken (events.map Observation.printed) →
      m.process pid = some l' → InStep w base script pid n l₁ l' → Obeys i l m events
  | ended {acts : List Activity} {l₁ : PrivateMachine} {e : Ending} :
      Runs (· = l) (PrivateMachine.Step (w.script base script) pid) acts l₁ →
      spoken (acts.map Activity.console) = spoken (events.map Observation.printed) →
      PrivateMachine.Ends (w.script base script) l₁ e → m.Gone pid i e → Obeys i l m events

end

section

variable {w : Hardware} {base : ℕ} {script : List Command} {pid : ProcessId} {i : ℕ} {l : PrivateMachine}
  {m : SharedMachine} {events : List Observation} {acts acts' : List Activity}

theorem spoken_filter {α : Type} {keep : α → Bool} {f : α → List UInt8} (h : ∀ a, keep a = false → f a = [])
    (xs : List α) : spoken ((xs.filter keep).map f) = spoken (xs.map f) := by
  induction xs with
  | nil => rfl
  | cons a xs ih =>
    unfold spoken at ih ⊢
    cases hkeep : keep a with
    | true =>
      rw [List.filter_cons_of_pos hkeep,List.map_cons,List.map_cons,List.filter_cons,List.filter_cons,ih]
    | false => rw [List.filter_cons_of_neg (by simp [hkeep]),ih,List.map_cons,h a hkeep,
        List.filter_cons_of_neg (by simp)]

theorem console_printed
    (h : List.Forall₂ (fun a e => Activity.console a = Observation.printed e) acts events) :
    acts.map Activity.console = events.map Observation.printed := by
  induction h with
  | nil => rfl
  | cons hprinted _ ih => rw [List.map_cons,List.map_cons,hprinted,ih]

theorem spoken_same (hsame : acts'.filter (!·.isCompute) = acts.filter (!·.isCompute))
    (hfits : List.Forall₂ (fun a e => Activity.console a = Observation.printed e)
      (acts.filter Activity.isInstruction) events) :
    spoken (acts'.map Activity.console) = spoken (events.map Observation.printed) := by
  have hcompute : ∀ a : Activity, (!a.isCompute) = false → a.console = [] := by
    intro a ha
    cases a with
    | compute => rfl
    | _ => cases ha
  have hwoken : ∀ a : Activity, a.isInstruction = false → a.console = [] := by
    intro a ha
    cases a with
    | woken => rfl
    | _ => cases ha
  rw [← console_printed hfits,spoken_filter hwoken,← spoken_filter hcompute acts',hsame,
    spoken_filter hcompute]

theorem Alike.refl (l : PrivateMachine) : Alike l l := ⟨rfl,rfl,rfl⟩

theorem Linked.obeys (h : Linked script base l l) (hclosed : closed none script = true)
    (hmirrored : Mirrored w.amd64 pid i l m events) : Obeys w base script pid i l m events := by
  have hrefines := @script_refines script base w pid hclosed
  cases hmirrored with
  | alive hruns hfits hl' =>
    obtain ⟨acts',l₁,n,hcoarse,hsame,hwithin⟩ := hrefines.follows h hruns
    exact .alive hcoarse (spoken_same hsame hfits) hl' hwithin
  | ended hruns hfits hlast hends hgone =>
    obtain ⟨acts',l₁,n,hcoarse,hsame,hwithin⟩ := hrefines.follows h hruns
    refine .ended hcoarse ?_ (hwithin.ended hends) hgone
    rw [spoken_same hsame hfits,List.map_cons,hlast]
    rfl

end

end VladOs
