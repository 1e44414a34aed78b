import VladOs.Console.OutputBuffer
import VladOs.Program.Suite

namespace VladOs

open Build Transition

section

variable {B : Boot} {P : Platform} {isa : Isa} {w : Hardware} {b : OutputBuffer} {p : Program}
  {arg0 : UInt64} {handle : UserProcessHandle} {s : System} {cpu : TrapFrame} {m m' : SharedMachine}
  {later : List Observation} {log : List (List (List UInt8))} {needle output : List UInt8} {e : Ending}

abbrev Logged : List (List (List UInt8)) → List Observation → Prop :=
  List.Forall₂ fun chunks e => chunks.flatten = e.printed

theorem Logged.bytes (h : Logged log later) :
    log.reverse.flatMap List.flatten = later.reverse.flatMap Observation.printed := by
  induction h with
  | nil => rfl
  | cons hprinted _ ih =>
    rw [List.reverse_cons,List.reverse_cons,List.flatMap_append,List.flatMap_append,ih,
      List.flatMap_singleton,List.flatMap_singleton,hprinted]

theorem Logged.text (h : Logged log later)
    (hserial : m'.serial = m.serial ++ later.reverse.flatMap Observation.printed) :
    (b.clear.heard log).text = (m'.serial.drop m.serial.length).take OUTPUT_BUFFER_SIZE := by
  rw [OutputBuffer.text_heard,OutputBuffer.text_clear,List.nil_append,h.bytes,hserial,List.drop_left]

theorem logged_whole : Logged (later.map fun e => [e.printed]) later :=
  List.forall₂_map_left_iff.mpr (List.forall₂_same.mpr fun _ _ => List.flatten_singleton)

theorem printed_within {outputs : List (List UInt8)} {keep : Observation → Bool}
    (h : spoken outputs.reverse = spoken ((later.filter keep).map Observation.printed))
    (hmem : output ∈ outputs) : output <:+: later.reverse.flatMap Observation.printed := by
  by_cases hempty : output = []
  · rw [hempty]
    exact List.nil_infix
  · have hspoken : output ∈ spoken outputs.reverse :=
      List.mem_filter.mpr ⟨List.mem_reverse.mpr hmem,by simpa using hempty⟩
    rw [h] at hspoken
    obtain ⟨e,he,rfl⟩ := List.mem_map.mp (List.mem_of_mem_filter hspoken)
    rw [List.flatMap_def]
    exact List.infix_of_mem_flatten
      (List.mem_map_of_mem (List.mem_reverse.mpr (List.mem_of_mem_filter he)))

theorem output_contains_printed (hlater : Runs (· = m) (Observed P isa) later m') (hlog : Logged log later) :
    (b.clear.heard log).contains needle = true ↔
      needle <:+: (m'.serial.drop m.serial.length).take OUTPUT_BUFFER_SIZE := by
  have hserial : m'.serial = m.serial ++ later.reverse.flatMap Observation.printed :=
    observed_serial (hlater.mono fun _ _ _ hstep => And.intro hstep trivial)
  rw [OutputBuffer.contains_iff,hlog.text hserial]

theorem output_contains_printed_hello : ∃ m later m' log,
    Runs (· = m) (Observed standardPlatform plainHardware.amd64) later m' ∧ Logged log later ∧
    (OutputBuffer.empty.clear.heard log).contains helloMessage = true ∧
    ∀ needle, (OutputBuffer.empty.clear.heard log).contains needle = true ↔ needle <:+: helloMessage := by
  obtain ⟨handle,s,later,m',-,hlater,hserial,-⟩ := exists_hello plainHardware
  have hruns := hlater.mono fun _ _ _ hstep => hstep.1
  have hprinted : (m'.serial.drop s.kernel.serial.length).take OUTPUT_BUFFER_SIZE = helloMessage := by
    rw [hserial,List.drop_left]
    rfl
  have hfound : ∀ needle, (OutputBuffer.empty.clear.heard (later.map fun e => [e.printed])).contains needle =
      true ↔ needle <:+: helloMessage := fun needle => by
    rw [← hprinted]
    exact output_contains_printed hruns logged_whole
  exact ⟨_,later,m',_,hruns,logged_whole,(hfound _).mpr List.infix_rfl,hfound⟩

theorem built_program_output_found (h : Launched P B p arg0 handle s)
    (hclosed : closed none p.script = true) (hload : Loadable USER_CODE_BASE p.segments)
    (hstraight : ∀ k ∈ p.script, k.jumpsBack = false)
    (hlater : Runs (· = ⟨s,cpu⟩)
      (fun m e m' => Observed P w.amd64 m e m' ∧ e.happening.spares handle.taskId) later m')
    (hgone : m'.Gone handle.pid handle.taskId e) (hlog : Logged log later)
    (hroom : m'.serial.length ≤ s.kernel.serial.length + OUTPUT_BUFFER_SIZE) : ∃ l done k rest outputs l',
      Begun p.script arg0 l ∧ p.script = done ++ k :: rest ∧ Passed w handle.pid l done outputs l' ∧
      spoken outputs.reverse = spoken ((later.filter (·.happening.isOf handle.pid)).map Observation.printed) ∧
      Verdict k l' e ∧ ∀ output ∈ outputs, (b.clear.heard log).contains output = true := by
  obtain ⟨l,-,hbegun,hmirrored,hst⟩ := h.followed hclosed hload hlater
  obtain ⟨done,k,rest,outputs,l',hscript,hpassed,hspoken,hverdict⟩ := hbegun.verdict hclosed hstraight
    hmirrored hst hgone
  have hserial := observed_serial hlater
  refine ⟨l,done,k,rest,outputs,l',hbegun,hscript,hpassed,hspoken,hverdict,fun output hmem => ?_⟩
  rw [OutputBuffer.contains_iff,hlog.text hserial,List.take_of_length_le (by
    rw [List.length_drop]
    exact Nat.sub_le_iff_le_add'.mpr hroom),hserial,List.drop_left]
  exact printed_within hspoken hmem

theorem built_program_output_found_hello : ∃ handle s later m' log l done k rest outputs l',
    Launched standardPlatform smallMachine writeHello 0 handle s ∧
    Runs (· = ⟨s,.ofCall 0 0 0 0⟩) (fun m e m' =>
      Observed standardPlatform plainHardware.amd64 m e m' ∧ e.happening.spares handle.taskId) later m' ∧
    m'.serial.length ≤ s.kernel.serial.length + OUTPUT_BUFFER_SIZE ∧ Logged log later ∧
    Passed plainHardware handle.pid l done outputs l' ∧ writeHello.script = done ++ k :: rest ∧
    Verdict k l' (.exited 0) ∧ helloMessage ∈ outputs ∧
    (OutputBuffer.empty.clear.heard log).contains helloMessage = true := by
  obtain ⟨handle,s,later,m',hlaunched,hlater,hserial,hsaid,hgone⟩ := exists_hello plainHardware
  have hfits : writeHello.fits = true := by decide
  have hroom : m'.serial.length ≤ s.kernel.serial.length + OUTPUT_BUFFER_SIZE := by
    rw [hserial,List.length_append]
    exact Nat.add_le_add_left (by decide) _
  obtain ⟨l,done,k,rest,outputs,l',-,hscript,hpassed,hspoken,hverdict,hfound⟩ := built_program_output_found
    hlaunched (by decide) (Program.fits.loadable hfits) (by decide) hlater hgone logged_whole hroom
  have hmem := printed_spoken hspoken hsaid (by decide)
  exact ⟨handle,s,later,m',_,l,done,k,rest,outputs,l',hlaunched,hlater,hroom,logged_whole,hpassed,hscript,
    hverdict,hmem,hfound _ hmem⟩

end

end VladOs
