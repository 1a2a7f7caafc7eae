import XcfFlatten.Proofs.File.Appended
import XcfFlatten.Proofs.File.HeaderGrammar
import XcfFlatten.Proofs.File.Outline

/-!
# Probes

Before a file is decoded it may be looked at: whether it is an XCF file at all (`isXcf`), how large
its image is (`peekSize`), and what its layers are (`Summary.decode`). What is found agrees with what
decoding finds (`Document.probes_agree`), and the first two leave the reader where it was, even if
what follows makes no sense, so that decoding may begin there.
-/

namespace XcfFlatten

namespace Document

/-- **Probes.** What decodes to a document is an XCF file, of the size that is found in the header,
with a summary that agrees with the document and has a visible layer. Looking at the header never
fails for good, and leaves the reader where it was, wherever that is, whatever the data, and wherever
a look that fails may have gone. -/
theorem probes_agree (data : Bytes) :
    (∀ document, decode data = .ok document →
      isXcf data {} = .ok (true, {}) ∧
      (∀ astray, peekSize data {} astray =
        .ok (.ok (document.canvas.width, document.canvas.height), {})) ∧
      ∃ summary, Summary.decode data = .ok summary ∧ summary.version = document.version ∧
        summary.width = document.canvas.width ∧ summary.height = document.canvas.height ∧
        summary.comment = document.comment ∧ ∃ layer ∈ summary.layers, layer.visible = true) ∧
    ∀ cursor, (∃ found, isXcf data cursor = .ok (found, cursor)) ∧
      ∀ astray, ∃ size, peekSize data cursor astray = .ok (size, cursor) := by
  refine ⟨?_, fun cursor => ⟨⟨_, isXcf_eq data cursor⟩, fun astray =>
    ⟨_, peekSize_eq data cursor astray⟩⟩⟩
  intro document hdecode
  obtain ⟨outline, houtline, ⟨record, hrecord, hvisible⟩, hwidth, hheight, hversion, hcomment⟩ :=
    exists_outline (fun length => Reader.Tame.bytesPadded length) hdecode
  -- What the two readers have in common is the outline.
  have hsummary : Summary.decode data = .ok outline.summary :=
    Summary.decode_eq_ok_iff.mpr ⟨outline, houtline, rfl⟩
  -- The outline begins with a header that was read, and that is all the probes look at.
  obtain ⟨behindHeader, -, -, -, hheader, -⟩ := houtline
  refine ⟨Header.isXcf_of_read hheader, fun astray => ?_, outline.summary, hsummary, hversion.symm,
    hwidth.symm, hheight.symm, hcomment.symm, record.summary, ?_, hvisible⟩
  · rw [peekSize_eq, hwidth, hheight]
    exact congrArg (fun size => Except.ok (size, _)) (congrArg (Except.map _) hheader)
  · exact List.mem_map_of_mem (List.mem_reverse.mpr hrecord)

set_option maxRecDepth 10000 in
/-- A file with one layer is looked at from its beginning, and from a position past its end. -/
theorem probes_agree_wholeFile :
    ∃ document, decode wholeFile = .ok document ∧ isXcf wholeFile {} = .ok (true, {}) ∧
      peekSize wholeFile {} = .ok (.ok (document.canvas.width, document.canvas.height), {}) ∧
      (∃ summary, Summary.decode wholeFile = .ok summary ∧
        ∃ layer ∈ summary.layers, layer.visible = true) ∧
      ∃ size, peekSize wholeFile ⟨200, 11⟩ 7 = .ok (size, ⟨200, 11⟩) := by
  have hwhole : (decode wholeFile).toOption.map (fun d => d.canvas.colorAt? 1 0) =
      some (some (Rgb.gray 200).solid) := by decide +kernel
  obtain ⟨document, hdecode, -⟩ := exists_decode hwhole
  obtain ⟨hfound, hprobes⟩ := probes_agree wholeFile
  obtain ⟨hmagic, hsize, summary, hsummary, -, -, -, -, hvisible⟩ := hfound document hdecode
  exact ⟨document, hdecode, hmagic, hsize 0, ⟨summary, hsummary, hvisible⟩, (hprobes ⟨200, 11⟩).2 7⟩

end Document

end XcfFlatten
