import Ia32.Sandbox.Basic

/-!
# Laws of installing an image

An image is mapped into a fresh processor, whatever the sandbox has done before. All that the
sandbox itself says in it is where the stack starts.

* `result_install`, `events_install`: what the mapping comes to.
* `sandbox_install_of_ok`, `sandbox_install_of_error`: the sandbox afterwards.
* `loadWith_eq_mount`: all that a load takes from its reader is the image.
-/

namespace Ia32.Sandbox

variable {σ : Type} {s : Sandbox σ} {mapping : Exec LoadError LoadedImage}

theorem result_install : (s.install mapping).result =
    (mapping.run (.withStackTop s.config.stackTop)).result := by
  unfold install
  rcases mapping.run (.withStackTop s.config.stackTop) with ⟨_ | _, cpu, events⟩ <;> rfl

theorem events_install : (s.install mapping).events =
    (mapping.run (.withStackTop s.config.stackTop)).events := by
  unfold install
  rcases mapping.run (.withStackTop s.config.stackTop) with ⟨_ | _, cpu, events⟩ <;> rfl

/-- An image that has been mapped replaces the processor, the bound symbols and the image. -/
theorem sandbox_install_of_ok {loaded : LoadedImage}
    (h : (s.install mapping).result = .ok loaded) :
    (s.install mapping).sandbox =
      { s with
        cpu := (mapping.run (.withStackTop s.config.stackTop)).cpu.jump loaded.entry
        linkage := { s.linkage with imports := loaded.imports }
        image := some loaded } := by
  revert h
  unfold install
  rcases mapping.run (.withStackTop s.config.stackTop) with ⟨_ | _, cpu, events⟩
  · exact fun h => nomatch h
  · rintro ⟨⟩
    rfl

/-- A mapping that fails leaves nothing behind, not even the image that was there before. -/
theorem sandbox_install_of_error {e : LoadError} (h : (s.install mapping).result = .error e) :
    (s.install mapping).sandbox = s.unload := by
  revert h
  unfold install
  rcases mapping.run (.withStackTop s.config.stackTop) with ⟨_ | _, cpu, events⟩
  · exact fun _ => rfl
  · exact fun h => nomatch h

/-! ## Images that are mounted -/

variable {image : Pe.Image} {file : Pe.Bytes} {loaded : LoadedImage}

/-- A file that can be read is mounted as the image that it is read as. -/
theorem loadWith_eq_mount {read? : Pe.Reader} (hread : read? file = some image) :
    s.loadWith read? file = s.mount image file := by
  rw [loadWith, mount, Pe.loadWith, Pe.readImage, hread]
  rfl

/-- A load maps the image into a fresh processor. -/
theorem result_mount (s : Sandbox σ) (image : Pe.Image) (file : Pe.Bytes) :
    (s.mount image file).result =
      ((image.map file s.config.thunkBase).run (.withStackTop s.config.stackTop)).result :=
  result_install

/-- A load that succeeds leaves the memory of the mapping, and the symbols that it has bound. -/
theorem mount_of_ok (h : (s.mount image file).result = .ok loaded) :
    (s.mount image file).sandbox.imports = loaded.imports ∧
      (s.mount image file).sandbox.cpu.memory =
        ((image.map file s.config.thunkBase).run (.withStackTop s.config.stackTop)).cpu.memory := by
  rw [mount, sandbox_install_of_ok h]
  exact ⟨rfl, rfl⟩

end Ia32.Sandbox
