import Ia32.Host.Win32
import Ia32.Proofs.Admission
import Ia32.Proofs.Run
import Ia32.Sandbox.Lemmas

/-!
# What a sandbox is asked to do

A host makes requests of a sandbox, one after the other (`Request`). Whatever they are, they do
not show in what a later load gives: it replaces the machine. And once a load has failed, the
machine stands still until another one succeeds. Files are read by any reader, of which nothing is
assumed; it may refuse a file for reasons of its own.

* `config_serveAll`: no request changes the settings.
* `load_eq_of_config`: a load depends on the settings alone.
* `load_forgets`: **a load after any requests is as one into a new sandbox.**
* `Disarmed.serveAll`: a sandbox without an image keeps its processor as it is until it is given
  an image or the host changes the processor itself.
* `load_disarms`: **after a load that fails nothing runs.**
-/

namespace Ia32

/-- What a host can ask of a sandbox. -/
inductive Request (σ : Type) where
  | load (file : Pe.Bytes)
  | step
  | execute
  /-- To have its processor changed. -/
  | change (f : Cpu → Cpu)
  | addEmulator (emulator : Emulator)
  | setHandler (handler : FaultHandler σ) (state : σ)
  | requestHalt (requested : Bool)

namespace Sandbox

variable {σ : Type}

/-- The sandbox after a request, files being read by `read?`. -/
def serve (s : Sandbox σ) (read? : Pe.Reader) : Request σ → Sandbox σ
  | .load file => (s.loadWith read? file).sandbox
  | .step => s.step.sandbox
  | .execute => s.execute.sandbox
  | .change f => { s with cpu := f s.cpu }
  | .addEmulator emulator => s.addEmulator emulator
  | .setHandler handler state => s.setHandler handler state
  | .requestHalt requested => s.requestHalt requested

/-- The sandbox after some requests. -/
def serveAll (s : Sandbox σ) (read? : Pe.Reader) (requests : List (Request σ)) : Sandbox σ :=
  requests.foldl (·.serve read?) s

variable {read? : Pe.Reader}

theorem serveAll_cons (s : Sandbox σ) (request : Request σ) (requests : List (Request σ)) :
    s.serveAll read? (request :: requests) = (s.serve read? request).serveAll read? requests := rfl

/-! ## A load replaces the machine -/

/-- No request changes the settings. -/
theorem config_serve (s : Sandbox σ) (request : Request σ) :
    (s.serve read? request).config = s.config := by
  cases request with
  | load file =>
    show (s.loadWith read? file).sandbox.config = s.config
    cases hresult : (s.loadWith read? file).result with
    | ok loaded => rw [loadWith, sandbox_install_of_ok hresult]
    | error e => rw [loadWith, sandbox_install_of_error hresult, unload]
  | step =>
    show s.step.sandbox.config = s.config
    unfold step
    split
    · rfl
    · split <;> rfl
  | execute => exact execute_invariant (P := fun t => t.config = s.config) (fun t ht => by
      obtain ⟨controls, rep, eip, hturn⟩ := turn_frame t
      rw [hturn, ← ht]) rfl
  | change | addEmulator | setHandler | requestHalt => rfl

theorem config_serveAll (s : Sandbox σ) (requests : List (Request σ)) :
    (s.serveAll read? requests).config = s.config := by
  induction requests generalizing s with
  | nil => rfl
  | cons request requests ih => rw [serveAll_cons, ih, config_serve]

/-- A load depends on the settings alone: it has the same result in both sandboxes, and takes the
same machine into both. -/
theorem load_eq_of_config {s t : Sandbox σ} (hconfig : s.config = t.config) (file : Pe.Bytes) :
    let here := s.loadWith read? file
    let there := t.loadWith read? file
    here.result = there.result ∧ here.events = there.events ∧
      ∀ loaded, here.result = .ok loaded → here.sandbox =
        { s with
          cpu := there.sandbox.cpu
          linkage := { s.linkage with imports := there.sandbox.imports }
          image := there.sandbox.image } := by
  intro here there
  have hresult : here.result = there.result := by
    show (s.loadWith read? file).result = (t.loadWith read? file).result
    unfold loadWith
    rw [result_install, result_install, hconfig]
  refine ⟨hresult, ?_, fun loaded hloaded => ?_⟩
  · show (s.loadWith read? file).events = (t.loadWith read? file).events
    unfold loadWith
    rw [events_install, events_install, hconfig]
  · have hs : here.sandbox = _ := sandbox_install_of_ok hloaded
    have ht : there.sandbox = _ := sandbox_install_of_ok (hresult.symm.trans hloaded)
    rw [hs, ht, hconfig]
    rfl

/-- **A load after any requests is as one into a new sandbox**, whatever the reader. It has the
same result, and if it succeeds the processor, the bound symbols and the image are those of the new
sandbox; all else is as it was before. -/
theorem load_forgets (read? : Pe.Reader) (config : Config) (state state' : σ)
    (requests : List (Request σ)) (file : Pe.Bytes) :
    let s := (new config state).serveAll read? requests
    let fresh := (new config state').loadWith read? file
    (s.loadWith read? file).result = fresh.result ∧
      (s.loadWith read? file).events = fresh.events ∧
      ∀ loaded, (s.loadWith read? file).result = .ok loaded →
        (s.loadWith read? file).sandbox =
            { s with
              cpu := fresh.sandbox.cpu
              linkage := { s.linkage with imports := fresh.sandbox.imports }
              image := fresh.sandbox.image } ∧
          s.config = config := by
  intro s fresh
  have hconfig : s.config = config := config_serveAll _ requests
  obtain ⟨hresult, hevents, hsandbox⟩ := load_eq_of_config (t := new config state') hconfig file
  exact ⟨hresult, hevents, fun loaded hloaded => ⟨hsandbox loaded hloaded, hconfig⟩⟩

/-- A file with one section, which holds one instruction: HLT. -/
def haltFile : Pe.Bytes :=
  #[0x4d, 0x5a, 0x00, 0x00, 0x50, 0x45, 0x00, 0x00, 0x4c, 0x01, 0x01, 0x00, 0x00, 0x00, 0x00, 0x00,
    0x00, 0x00, 0x00, 0x00, 0x00, 0x00, 0x00, 0x00, 0x60, 0x00, 0x00, 0x00, 0x0b, 0x01, 0x00, 0x00,
    0x00, 0x00, 0x00, 0x00, 0x00, 0x00, 0x00, 0x00, 0x00, 0x00, 0x00, 0x00, 0x00, 0x10, 0x00, 0x00,
    0x00, 0x00, 0x00, 0x00, 0x00, 0x00, 0x00, 0x00, 0x00, 0x00, 0x40, 0x00, 0x04, 0x00, 0x00, 0x00,
    0x00, 0x00, 0x00, 0x00, 0x00, 0x00, 0x00, 0x00, 0x00, 0x00, 0x00, 0x00, 0x00, 0x00, 0x00, 0x00,
    0x00, 0x00, 0x00, 0x00, 0x00, 0x00, 0x00, 0x00, 0x80, 0x00, 0x00, 0x00, 0x00, 0x00, 0x00, 0x00,
    0x00, 0x00, 0x00, 0x00, 0x00, 0x00, 0x00, 0x00, 0x00, 0x00, 0x00, 0x00, 0x00, 0x00, 0x00, 0x00,
    0x00, 0x00, 0x00, 0x00, 0x00, 0x00, 0x00, 0x00, 0x00, 0x00, 0x00, 0x00, 0x2e, 0x74, 0x65, 0x78,
    0x74, 0x00, 0x00, 0x00, 0x01, 0x00, 0x00, 0x00, 0x00, 0x10, 0x00, 0x00, 0x01, 0x00, 0x00, 0x00,
    0xa4, 0x00, 0x00, 0x00, 0x00, 0x00, 0x00, 0x00, 0x00, 0x00, 0x00, 0x00, 0x00, 0x00, 0x00, 0x00,
    0x20, 0x00, 0x00, 0x60, 0xf4]

/-- What `haltFile` is read as. -/
def haltImage : Pe.Image where
  machine := Pe.machine386
  optional := some (.pe32 ⟨0x400000, 0x1000, 0x80⟩)
  sections := [
    { name := some ".text", virtualSize := 1, virtualAddress := 0x1000, rawSize := 1,
      rawPointer := 0xa4, characteristics := 0x60000020 }]
  imports := []

/-- The result of mounting an image, by the checks that it has to pass. -/
theorem result_mount_of_header {s : Sandbox σ} {image : Pe.Image} {header : Pe.Header32}
    (hheader : image.header = .ok header) (file : Pe.Bytes) :
    (s.mount image file).result =
      (image.check header file).map fun _ => image.loaded header s.config.thunkBase := by
  rw [result_mount, (Pe.Image.map_run image header file s.config.thunkBase hheader
    (Pe.Image.unprotected_withStackTop _)).1]

theorem result_load_haltFile (s : Sandbox σ) :
    (s.loadWith Pe.Image.parse? haltFile).result = .ok ⟨0x401000, 0x400000, ∅⟩ := by
  have hread : Pe.Image.parse? haltFile = some haltImage := by decide +kernel
  have hcheck : haltImage.check ⟨0x400000, 0x1000, 0x80⟩ haltFile = .ok () :=
    Pe.Image.check_eq_ok_iff.mpr (by decide +kernel)
  rw [loadWith_eq_mount hread, result_mount_of_header rfl, hcheck]
  rfl

/-- Without its last byte the file does not hold all of its section. -/
theorem result_load_pop_haltFile (s : Sandbox σ) :
    (s.loadWith Pe.Image.parse? haltFile.pop).result = .error (.truncated ".text" 0xa4 1 0xa4) := by
  have hread : Pe.Image.parse? haltFile.pop = some haltImage := by decide +kernel
  have hsize : haltFile.pop.size = 0xa4 := by decide +kernel
  have hplace : Pe.rebase 0x400000 0x1000 = .ok 0x401000 :=
    Pe.rebase_eq_ok_iff.mpr (by decide)
  have hcheck : haltImage.check ⟨0x400000, 0x1000, 0x80⟩ haltFile.pop =
      .error (.truncated ".text" 0xa4 1 0xa4) := by
    simp [Pe.Image.check, Pe.Section.check, Pe.Section.rawData, Pe.Section.label, haltImage,
      hsize, hplace, bind, Except.bind, Except.map]
  rw [loadWith_eq_mount hread, result_mount_of_header rfl, hcheck]
  rfl

/-- Requests that leave traces: a run, a changed processor, a pending halt, a load that fails. -/
def uses : List (Request Unit) :=
  [.load haltFile, .execute, .change fun cpu => { cpu with rep := some .rep, retired := 7 },
    .requestHalt true, .load haltFile.pop]

theorem load_forgets_uses :
    let read? := Pe.Image.parse?
    let s := (new {} ()).serveAll read? uses
    let fresh := (new {} ()).loadWith read? haltFile
    (s.loadWith read? haltFile).result = .ok ⟨0x401000, 0x400000, ∅⟩ ∧
      (s.loadWith read? haltFile).sandbox.cpu = fresh.sandbox.cpu ∧
      (s.loadWith read? haltFile).sandbox.controls = s.controls := by
  have hloaded := result_load_haltFile ((new {} ()).serveAll Pe.Image.parse? uses)
  obtain ⟨-, -, hsandbox⟩ := load_forgets Pe.Image.parse? {} () () uses haltFile
  obtain ⟨hafter, -⟩ := hsandbox _ hloaded
  refine ⟨hloaded, ?_, ?_⟩
  · rw [hafter]
  · rw [hafter]

/-! ## After a load that fails -/

/-- A request that neither brings an image nor changes the processor. -/
def Idle (s : Sandbox σ) (read? : Pe.Reader) : Request σ → Prop
  | .load file => ∃ e, (s.loadWith read? file).result = .error e
  | .change _ => False
  | .step | .execute | .addEmulator _ | .setHandler .. | .requestHalt _ => True

/-- Each of the requests is idle after those before it. -/
def Idles (s : Sandbox σ) (read? : Pe.Reader) : List (Request σ) → Prop
  | [] => True
  | request :: requests => s.Idle read? request ∧ (s.serve read? request).Idles read? requests

/-- Nothing can be run, and the processor is `cpu`. -/
structure Disarmed (s : Sandbox σ) (cpu : Cpu) : Prop where
  image : s.image = none
  imports : s.imports = ∅
  cpu : s.cpu = cpu

namespace Disarmed

variable {s : Sandbox σ} {cpu : Cpu}

theorem step_eq (h : s.Disarmed cpu) : s.step = ⟨.error .notLoaded, s, []⟩ := by
  rw [step, if_pos (by rw [h.image]; rfl)]

theorem execute_eq (h : s.Disarmed cpu) : s.execute = ⟨.error .notLoaded, s, []⟩ :=
  execute_of_not_loaded (by rw [h.image]; rfl)

/-- A load that fails leaves the processor as it is. -/
theorem of_load {file : Pe.Bytes} {e : LoadError}
    (h : (s.loadWith read? file).result = .error e) :
    (s.loadWith read? file).sandbox.Disarmed s.cpu := by
  have hunload : (s.loadWith read? file).sandbox = s.unload := sandbox_install_of_error h
  rw [hunload]
  exact ⟨rfl, rfl, rfl⟩

/-- An idle request leaves a sandbox without an image, and the processor as it is. -/
theorem serve (h : s.Disarmed cpu) {request : Request σ} (hidle : s.Idle read? request) :
    (s.serve read? request).Disarmed cpu := by
  cases request with
  | load file =>
    obtain ⟨e, he⟩ := hidle
    rw [← h.cpu]
    exact of_load he
  | step => rwa [Sandbox.serve, h.step_eq]
  | execute => rwa [Sandbox.serve, h.execute_eq]
  | change => exact hidle.elim
  | addEmulator | setHandler | requestHalt => exact ⟨h.image, h.imports, h.cpu⟩

/-- So does any number of them. -/
theorem serveAll (h : s.Disarmed cpu) {requests : List (Request σ)}
    (hidle : s.Idles read? requests) : (s.serveAll read? requests).Disarmed cpu := by
  induction requests generalizing s with
  | nil => exact h
  | cons request requests ih => exact ih (h.serve hidle.1) hidle.2

end Disarmed

/-- **After a load that fails nothing runs.** At whatever it fails, be it that the reader refuses
the file, there is no image and no symbol is bound, and the processor is as it was. As long as no
load succeeds and the host does not change the processor itself, every step and every run is refused
and leaves the sandbox as it is. -/
theorem load_disarms (read? : Pe.Reader) {s : Sandbox σ} {file : Pe.Bytes} {e : LoadError}
    (hrefused : (s.loadWith read? file).result = .error e) :
    let after := (s.loadWith read? file).sandbox
    after.image = none ∧ after.imports = ∅ ∧ after.cpu = s.cpu ∧
      ∀ requests, after.Idles read? requests →
        let later := after.serveAll read? requests
        later.step = ⟨.error .notLoaded, later, []⟩ ∧
          later.execute = ⟨.error .notLoaded, later, []⟩ ∧ later.cpu = s.cpu := by
  intro after
  have hdisarmed : after.Disarmed s.cpu := .of_load hrefused
  refine ⟨hdisarmed.image, hdisarmed.imports, hdisarmed.cpu, fun requests hidle => ?_⟩
  have hlater := hdisarmed.serveAll hidle
  exact ⟨hlater.step_eq, hlater.execute_eq, hlater.cpu⟩

/-- Requests in vain: none of them gives the sandbox an image. -/
def vain : List (Request Unit) :=
  [.step, .requestHalt true, .load haltFile.pop, .addEmulator Win32.kernel32, .execute]

theorem load_disarms_haltFile :
    let read? := Pe.Image.parse?
    let s := ((new {} ()).loadWith read? haltFile).sandbox
    let after := (s.loadWith read? haltFile.pop).sandbox
    let later := after.serveAll read? vain
    (s.loadWith read? haltFile.pop).result = .error (.truncated ".text" 0xa4 1 0xa4) ∧
      after.cpu = s.cpu ∧ later.step = ⟨.error .notLoaded, later, []⟩ ∧ later.cpu = s.cpu := by
  intro read? s after later
  have hrefused := result_load_pop_haltFile s
  obtain ⟨-, -, hcpu, hidle⟩ := load_disarms read? hrefused
  obtain ⟨hstep, -, hlater⟩ := hidle vain
    ⟨trivial, trivial, ⟨_, result_load_pop_haltFile _⟩, trivial, trivial, trivial⟩
  exact ⟨hrefused, hcpu, hstep, hlater⟩

end Sandbox

end Ia32
