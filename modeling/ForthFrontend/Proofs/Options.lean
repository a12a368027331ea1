import ForthFrontend.Command
import ForthFrontend.Proofs.Manifest
import ForthFrontend.Proofs.Path
import ForthFrontend.Proofs.Text.Utf8

/-!
# The image that options name

Options that pass their check name a kind of image, but they are checked as they would be read, with
the white space around the kind taken away and its letters in lower case, and later stages use them
as they were given. So the name of an image ends in the extension of its kind, and its manifest
shows that kind, exactly if the kind was given by its own name. The name of an image is a single
element unless the source is a path of slashes. Options made from the settings of the command line
meet both conditions.

## Main definitions

* `Manifest.IsFor`: a text is the manifest of an image of some kind.

## Main results

* `CompileOptions.image_of_validated`: what the image of options that pass their check is.
* `Command.image_of_compileOptions`: the images of the command line.
-/

namespace ForthFrontend

namespace Bytes

variable {s : Bytes} {b : UInt8}

theorem mem_dropWhile_of_not {α : Type} {p : α → Bool} {x : α} {xs : List α} (hx : p x = false)
    (h : x ∈ xs) : x ∈ xs.dropWhile p := by
  rw [← List.takeWhile_append_dropWhile (p := p) (l := xs)] at h
  refine (List.mem_append.1 h).resolve_left fun htaken => ?_
  rw [List.all_eq_true.1 List.all_takeWhile x htaken] at hx
  cases hx

/-- Trimming takes no ASCII byte but white space. -/
theorem mem_trimSpace (hb : b < 0x80) (hspace : inRanges spaceRanges b.toNat = false)
    (hmem : b ∈ s) : b ∈ trimSpace s := by
  have hunit : isSpaceUnit (.scalar b.toNat [b]) = false := by
    simpa [isSpaceUnit, Utf8.Unit.isStray, Utf8.Unit.value] using hspace
  have hfront := mem_dropWhile_of_not hunit (Utf8.scalar_mem_units hb hmem)
  have hinner := mem_dropWhile_of_not hunit (List.mem_reverse.2 hfront)
  exact List.mem_flatMap.2 ⟨_, List.mem_reverse.2 hinner, List.mem_singleton.2 rfl⟩

/-- The lower-case form keeps the ASCII bytes that are their own lower-case forms. -/
theorem mem_toLower (hb : b < 0x80) (hlower : Case.lower b.toNat = b.toNat) (hmem : b ∈ s) :
    b ∈ toLower s := by
  refine List.mem_flatMap.2 ⟨b.toNat, List.mem_map.2 ⟨_, Utf8.scalar_mem_units hb hmem, rfl⟩, ?_⟩
  rw [hlower, Utf8.encode_ascii hb]
  exact List.mem_singleton.2 rfl

/-- What follows the last dot of a text can be told from the text. -/
theorem endsWith_dot_cons_iff {front tail : Bytes} (hs : dot ∉ s) (htail : dot ∉ tail) :
    endsWith (front ++ dot :: s) (dot :: tail) = true ↔ s = tail := by
  -- of two endings of one text, the longer one holds the dot that the shorter one begins with
  have hlonger : ∀ {u v c : Bytes}, dot ∉ u → dot :: u = c ++ dot :: v → u = v := by
    intro u v c hu hc
    cases c with
    | nil => exact (List.cons.inj hc).2
    | cons b c =>
      refine absurd ?_ hu
      rw [(List.cons.inj hc).2]
      simp
  rw [endsWith, List.isSuffixOf_iff_suffix]
  constructor
  · rintro ⟨front', heq⟩
    obtain ⟨c, -, hc⟩ | ⟨c, -, hc⟩ := List.append_eq_append_iff.1 heq
    · exact (hlonger htail hc).symm
    · exact hlonger hs hc
  · rintro rfl
    exact List.suffix_append front (dot :: s)

end Bytes

/-! ### Kinds of images -/

namespace Target

variable {text : Bytes} {t : Target}

theorem name_eq_of_ofText (h : ofText text = .ok t) :
    t.name = (Bytes.trimSpace text).toLower := by
  rw [ofText] at h
  split at h
  · next hfound =>
    cases h
    simpa using List.find?_some hfound
  · cases h

/-- A text that names a kind of image holds no slash and no dot: trimming and the lower-case form
would keep them. -/
theorem notMem_of_ofText (h : ofText text = .ok t) {b : UInt8}
    (hb : b ∈ [Bytes.slash, Bytes.dot]) : b ∉ text := by
  intro hmem
  obtain ⟨hascii, hspace, hlower, hname⟩ : b < 0x80 ∧
      Bytes.inRanges Bytes.spaceRanges b.toNat = false ∧ Case.lower b.toNat = b.toNat ∧
      b ∉ t.name := by
    simp only [List.mem_cons, List.not_mem_nil, or_false] at hb
    rcases hb with rfl | rfl <;> cases t <;> decide
  rw [name_eq_of_ofText h] at hname
  exact hname (Bytes.mem_toLower hascii hlower (Bytes.mem_trimSpace hascii hspace hmem))

theorem ofText_name (t : Target) : ofText t.name = .ok t := by
  cases t <;> decide +kernel

theorem ne_nil_of_ofText (h : ofText text = .ok t) : text ≠ [] := by
  rintro rfl
  have hnone : ∀ t, ofText [] ≠ .ok t := fun t => by cases t <;> decide +kernel
  exact hnone t h

/-- A text is the name of no kind of image but the one it names. -/
theorem eq_name_iff (h : ofText text = .ok t) (k : Target) :
    text = k.name ↔ k = t ∧ text = t.name := by
  constructor
  · rintro rfl
    rw [ofText_name, Except.ok.injEq] at h
    exact ⟨h, congrArg name h⟩
  · rintro ⟨rfl, hname⟩
    exact hname

end Target

/-! ### Manifests of a kind -/

namespace Manifest

/-- The text is the manifest of an image of kind `t`. -/
def IsFor (content : Bytes) (t : Target) : Prop :=
  ∃ tables o, content = text tables o ∧ o.target = t.name

theorem shown_eq_name_iff {s : Bytes} {t : Target} :
    Yaml.Scalar.shown s = t.name ↔ s = t.name := by
  constructor
  · intro h
    rcases Yaml.Scalar.shown_eq_or_head? s with hsame | hspace
    · rw [← hsame, h]
    · rw [h] at hspace
      cases t <;> exact absurd hspace (by decide)
  · rintro rfl
    cases t <;> decide +kernel

/-- A manifest is for the kind of image that the options give by its own name. -/
theorem isFor_text_iff (tables : SymbolTables) (o : CompileOptions) (t : Target) :
    IsFor (text tables o) t ↔ o.target = t.name := by
  refine ⟨?_, fun h => ⟨tables, o, rfl, h⟩⟩
  rintro ⟨tables', o', htext, htarget⟩
  have hshown : Yaml.Scalar.shown o.target = Yaml.Scalar.shown o'.target :=
    congrArg Contents.target ((text_eq_text_iff _ _ _ _).1 htext)
  rw [htarget] at hshown
  rw [← shown_eq_name_iff, hshown, shown_eq_name_iff]

/-- An image is written to the path that the options give, and shows the kind that they give. -/
theorem isFor_generate {d : Disk} {cancelled : Bool} {tables : SymbolTables} {o : CompileOptions}
    {path : Path} (h : (generate d cancelled tables o).result = .ok path) :
    path = o.outputPath ∧ ∃ content, (generate d cancelled tables o).disk.read path = .ok content ∧
      ∀ k, IsFor content k ↔ o.target = k.name := by
  refine ⟨?_, text tables o, read_generate h, isFor_text_iff tables o⟩
  rw [generate] at h
  split at h
  · cases h
  · exact (Output.save_of_ok h).1

end Manifest

/-! ### Options that pass their check -/

namespace CompileOptions

variable {o : CompileOptions}

theorem of_validate (h : o.validate = .ok ()) :
    o.source ≠ [] ∧ ∃ t, Target.ofText o.target = .ok t := by
  cases hblank : Bytes.isBlank o.source with
  | true =>
    rw [validate, hblank] at h
    cases h
  | false =>
    rw [validate, hblank] at h
    refine ⟨fun hnil => ?_, ?_⟩
    · rw [hnil] at hblank
      exact absurd hblank (by decide +kernel)
    · cases htarget : Target.ofText o.target with
      | ok t => exact ⟨t, rfl⟩
      | error why =>
        rw [htarget] at h
        cases h

section Named

variable {t : Target} (htarget : Target.ofText o.target = .ok t) (houtput : o.output = [])

include htarget houtput

theorem outputPath_eq : o.outputPath = o.source.stem ++ Bytes.dot :: o.target := by
  have hne := Target.ne_nil_of_ofText htarget
  simp [outputPath, houtput, hne]

/-- The name of an image is a single element unless the source is a path of slashes. -/
theorem slash_notMem_outputPath_iff (hsource : o.source ≠ []) :
    Bytes.slash ∉ o.outputPath ↔ ∃ b ∈ o.source, b ≠ Bytes.slash := by
  have hrest : Bytes.slash ∉ Bytes.dot :: o.target := by
    have hne : Bytes.slash ≠ Bytes.dot := by decide
    simpa [hne] using Target.notMem_of_ofText htarget List.mem_cons_self
  rw [outputPath_eq htarget houtput, List.mem_append, or_iff_left hrest,
    Path.slash_notMem_stem_iff hsource]

/-- The name of an image ends in the extension of a kind exactly if that kind was given by its own
name. -/
theorem endsWith_outputPath_iff (k : Target) :
    o.outputPath.endsWith (Bytes.dot :: k.name) = true ↔ o.target = k.name := by
  have hdot : Bytes.dot ∉ k.name := by cases k <;> decide
  rw [outputPath_eq htarget houtput]
  exact Bytes.endsWith_dot_cons_iff (Target.notMem_of_ofText htarget (by simp)) hdot

end Named

/-- **What the image of checked options is.** Options that pass their check and give no path for the
image name a kind of image. The path of the image is a single element exactly if the source is no
path of slashes; it ends in the extension of that kind, and of no other, exactly if the kind was
given by its own name; and only then is an image that is written the manifest of that kind. -/
theorem image_of_validated (hvalid : o.validate = .ok ()) (houtput : o.output = []) :
    ∃ t, Target.ofText o.target = .ok t ∧
      (Bytes.slash ∉ o.outputPath ↔ ∃ b ∈ o.source, b ≠ Bytes.slash) ∧
      (∀ k : Target, o.outputPath.endsWith (Bytes.dot :: k.name) = true ↔
        k = t ∧ o.target = t.name) ∧
      ∀ (d : Disk) (cancelled : Bool) (tables : SymbolTables) (path : Path),
        (Manifest.generate d cancelled tables o).result = .ok path →
          path = o.outputPath ∧ ∃ content,
            (Manifest.generate d cancelled tables o).disk.read path = .ok content ∧
            ∀ k, Manifest.IsFor content k ↔ k = t ∧ o.target = t.name := by
  obtain ⟨hsource, t, htarget⟩ := of_validate hvalid
  have hname := Target.eq_name_iff htarget
  refine ⟨t, htarget, slash_notMem_outputPath_iff htarget houtput hsource, fun k => ?_, ?_⟩
  · rw [endsWith_outputPath_iff htarget houtput, hname]
  · intro d cancelled tables path hpath
    obtain ⟨houtputPath, content, hread, hfor⟩ := Manifest.isFor_generate hpath
    exact ⟨houtputPath, content, hread, fun k => (hfor k).trans (hname k)⟩

namespace LoudTarget

def disk : Disk where
  workDir := []
  entries := []

/-- Options with the kind of image in capital letters. -/
def options : CompileOptions where
  source := "a/main.4th"
  target := "DLL"

end LoudTarget

/-- A library asked for in capital letters gets neither the extension nor the manifest of one. -/
theorem image_of_validated_loudTarget :
    LoudTarget.options.validate = .ok () ∧ LoudTarget.options.output = [] ∧
    Target.ofText LoudTarget.options.target = .ok .dll ∧
    Bytes.slash ∉ LoudTarget.options.outputPath ∧
    LoudTarget.options.outputPath.endsWith ".dll" = false ∧
    (Manifest.generate LoudTarget.disk false {} LoudTarget.options).result = .ok "main.DLL" ∧
    ∃ content,
      (Manifest.generate LoudTarget.disk false {} LoudTarget.options).disk.read "main.DLL" =
        .ok content ∧ ¬ Manifest.IsFor content .dll := by
  have hvalid : LoudTarget.options.validate = .ok () := by decide +kernel
  have houtput : LoudTarget.options.output = [] := rfl
  have htarget : Target.ofText LoudTarget.options.target = .ok .dll := by decide +kernel
  have hpath : (Manifest.generate LoudTarget.disk false {} LoudTarget.options).result =
      .ok "main.DLL" := by rfl
  obtain ⟨t, ht, hslash, hends, hmanifest⟩ := image_of_validated hvalid houtput
  obtain rfl : Target.dll = t := Except.ok.inj (htarget.symm.trans ht)
  have hloud : ¬ LoudTarget.options.target = Target.name .dll := by decide
  obtain ⟨-, content, hread, hfor⟩ := hmanifest _ _ _ _ hpath
  refine ⟨hvalid, houtput, htarget, hslash.2 (by decide), ?_, hpath, content, hread, ?_⟩
  · exact Bool.eq_false_iff.2 fun h => hloud ((hends .dll).1 h).2
  · exact fun h => hloud ((hfor .dll).1 h).2

end CompileOptions

/-! ### Options of the command line -/

namespace Command

variable {c : Config} {source : Bytes} {o : CompileOptions}

/-- Options made from settings hold the kind of image by its own name, and a source with an
extension. -/
theorem compileOptions_eq_ok (h : compileOptions c source = .ok o) :
    ∃ t, Target.ofText (c.text .target) = .ok t ∧ o.target = t.name ∧
      o.source = Path.withDefaultExtension source := by
  obtain ⟨t, htarget, hrest⟩ := Definition.bind_eq_ok.1 h
  obtain ⟨-, -, hsame⟩ := Definition.bind_eq_ok.1 hrest
  obtain rfl := Definition.pure_eq_ok.1 hsame
  exact ⟨t, htarget, rfl, rfl⟩

/-- **The images of the command line.** An image without a path of its own is a file in the working
directory with the extension of its kind, and it is the manifest of that kind. -/
theorem image_of_compileOptions (h : compileOptions c source = .ok o) (houtput : o.output = []) :
    ∃ t, Target.ofText (c.text .target) = .ok t ∧ Bytes.slash ∉ o.outputPath ∧
      o.outputPath.endsWith (Bytes.dot :: t.name) = true ∧
      ∀ (d : Disk) (cancelled : Bool) (tables : SymbolTables) (path : Path),
        (Manifest.generate d cancelled tables o).result = .ok path →
          path = o.outputPath ∧ ∃ content,
            (Manifest.generate d cancelled tables o).disk.read path = .ok content ∧
            Manifest.IsFor content t := by
  obtain ⟨t, htarget, hname, hsource⟩ := compileOptions_eq_ok h
  have hnamed : Target.ofText o.target = .ok t := by rw [hname, Target.ofText_name]
  have hother : ∃ b ∈ o.source, b ≠ Bytes.slash :=
    hsource ▸ Path.exists_mem_withDefaultExtension source
  have hne : o.source ≠ [] := by
    obtain ⟨b, hb, -⟩ := hother
    exact List.ne_nil_of_mem hb
  refine ⟨t, htarget, ?_, ?_, ?_⟩
  · exact (CompileOptions.slash_notMem_outputPath_iff hnamed houtput hne).2 hother
  · exact (CompileOptions.endsWith_outputPath_iff hnamed houtput t).2 hname
  · intro d cancelled tables path hpath
    obtain ⟨houtputPath, content, hread, hfor⟩ := Manifest.isFor_generate hpath
    exact ⟨houtputPath, content, hread, (hfor t).2 hname⟩

end Command

end ForthFrontend
