import BinaryLayout.Proofs.CommandLine.Stages
import BinaryLayout.Proofs.Layout.FieldTable

/-!
# The two forms of the settings

The settings of the command come from a configuration file or from three words, and behind either
form an image can be named. A word for a width never names a configuration file, since its
characters are digits, a plus sign and blanks. So three words that give the same configuration as a
file lead to the same run, with the same image and whatever stands behind it. A run that succeeds
shows the layout of the definition with the image over its beginning.

## Main definitions

* `Layout.OverlaidBy`: a layout with data over the beginning of its buffer.
* `fieldLine`, `page`: what is written about a field and about a layout.

## Main results

* `namesConfigFile_of_width`: a word for a width names no configuration file.
* `Layout.overlaidBy_iff`: laying data over a buffer, byte by byte.
* `runTexts_eq_iff`: when a run succeeds, and what it writes.
* `settings_forms_agree`: both forms of the settings lead to the same run.
-/

namespace BinaryLayout

/-! ### Words for a width -/

/-- Only blanks are taken away from a text when it is trimmed. -/
theorem Text.mem_trim {s : List Char} {c : Char} (hc : c ∈ s) (hink : isBlank c = false) :
    c ∈ trim s := by
  have hdrop : ∀ t : List Char, c ∈ t → c ∈ t.dropWhile isBlank := by
    intro t ht
    rw [← List.takeWhile_append_dropWhile (p := isBlank) (l := t), List.mem_append] at ht
    refine ht.resolve_left fun hblank => ?_
    rw [List.mem_takeWhile_imp hblank] at hink
    cases hink
  rw [trim, List.mem_reverse]
  exact hdrop _ (List.mem_reverse.mpr (hdrop s hc))

/-- The characters of a word for a width are decimal digits, plus signs and blanks. -/
theorem Width.isDigitOf_of_ofText {word : String} {width : Width} (h : ofText word = .ok width)
    {c : Char} (hc : c ∈ word.toList) (hink : Text.isBlank c = false) (hplus : c ≠ '+') :
    Text.isDigitOf 10 c = true := by
  have hmem := Text.mem_trim hc hink
  rw [ofText] at h
  cases hbits : bitsOfText? word.toList with
  | none => simp only [hbits, reduceCtorEq] at h
  | some bits =>
    rw [bitsOfText?, Word.ofNumeral?, Option.filter_eq_some_iff] at hbits
    have hdigits := (Text.numeral?_eq_some_iff.mp hbits.1).all_isDigitOf
    refine List.all_eq_true.mp hdigits c ?_
    split
    · next rest htrim =>
      rw [htrim] at hmem
      exact (List.mem_cons.mp hmem).resolve_left hplus
    · exact hmem

/-! ### Data over a buffer -/

namespace Layout

variable {l l' : Layout} {data : List UInt8}

/-- The first layout is the second one with data over the beginning of its buffer: the bytes that
fit are those of the data, and the others are as they were. -/
structure OverlaidBy (l' : Layout) (data : List UInt8) (l : Layout) : Prop where
  config_eq : l'.config = l.config
  fields_eq : l'.fields = l.fields
  size_eq : l'.size = l.size
  replaced : ∀ a < min data.length l.size, l'.bytes[a]? = data[a]?
  kept : ∀ a, min data.length l.size ≤ a → l'.bytes[a]? = l.bytes[a]?

theorem getElem?_setBytes (l : Layout) (data : List UInt8) (a : Nat) :
    (l.setBytes data).2.bytes[a]? =
      if a < min data.length l.size then data[a]? else l.bytes[a]? :=
  Buffer.getElem?_overlay l.buffer data a

/-- **Overlays.** Laying data over a buffer is replacing its first bytes, as many as there are in
both. -/
theorem overlaidBy_iff : l'.OverlaidBy data l ↔ l' = (l.setBytes data).2 := by
  constructor
  · intro h
    have hbytes : l'.bytes = (l.setBytes data).2.bytes := by
      refine List.ext_getElem? fun a => ?_
      rw [getElem?_setBytes]
      split_ifs with ha
      · exact h.replaced a ha
      · exact h.kept a (Nat.le_of_not_lt ha)
    obtain ⟨config, fields, ⟨bytes⟩⟩ := l'
    obtain rfl : config = l.config := h.config_eq
    obtain rfl : fields = l.fields := h.fields_eq
    obtain rfl : bytes = (l.setBytes data).2.bytes := hbytes
    rfl
  · rintro rfl
    refine ⟨rfl, rfl, Buffer.size_overlay _ _, fun a ha => ?_, fun a ha => ?_⟩
    · rw [getElem?_setBytes, if_pos ha]
    · rw [getElem?_setBytes, if_neg (Nat.not_lt.mpr ha)]

theorem overlaidBy_nil_iff : l'.OverlaidBy [] l ↔ l' = l := by
  rw [overlaidBy_iff]
  rfl

end Layout

namespace CommandLine

variable {ε : Type} {around : Surroundings ε} {definition first : String} {others : List String}
  {config : Config} {image : Option String} {l : Layout}

/-! ### The forms of the settings -/

/-- A word for a width names no configuration file. -/
theorem namesConfigFile_of_width {word : String} {width : Width}
    (h : Width.ofText word = .ok width) : namesConfigFile word = false := by
  by_contra hname
  rw [Bool.not_eq_false, namesConfigFile, List.isSuffixOf_iff_suffix] at hname
  have hn : 'n' ∈ word.toList := hname.subset (by decide)
  have hdigit := Width.isDigitOf_of_ofText h hn (by decide) (by decide)
  exact absurd hdigit (by decide)

theorem settings_of_file {json : String} (hname : namesConfigFile first = true)
    (hjson : (around.files first).text = .ok json)
    (hconfig : Config.ofJson around.readConfig json = .ok config) (others : List String) :
    settings around first others = .ok (config, others.head?) := by
  simp only [settings, hname, if_true, configOfFile, hjson, hconfig, Except.mapError, Except.map]

theorem settings_of_words {byteOrder padding : String}
    (hwidth : Width.ofText first = .ok config.width)
    (horder : ByteOrder.ofText byteOrder = .ok config.byteOrder)
    (hpadding : Padding.ofText padding = .ok config.padding) (others : List String) :
    settings around first (byteOrder :: padding :: others) = .ok (config, others.head?) := by
  simp only [settings, namesConfigFile_of_width hwidth, Bool.false_eq_true, if_false,
    configOfWords, hwidth, horder, hpadding, Except.map]

/-! ### What is shown -/

/-- The bytes that are laid over the buffer: those of the image, or none if no image is named. -/
def imageBytes? (around : Surroundings ε) : Option String → Option (List UInt8)
  | none => some []
  | some name => around.files name

/-- The line of a field. A constant shows the value of the bytes where it stands. -/
def fieldLine (l : Layout) (f : Field) : String :=
  match f.kind with
  | .constant =>
    let value := Scalar.decode l.config.byteOrder (Buffer.slice l.bytes f.offset f.unit)
    s!"[{f.offset}] size={f.unit * 8} bits, label={f.label}, value={value.toInt}"
  | .space => s!"[{f.offset}] size={f.totalSize} bytes, label={f.label}"

/-- What is written about a layout: its size, a line for each field, and the hex dump. -/
def page (l : Layout) : String :=
  "=== Fields (" ++ toString l.size ++ " bytes) ===\n\n" ++
    String.ofList (Text.unlines (l.fields.map fun f => (fieldLine l f).toList)) ++
    "\n=== Buffer ===\n\n" ++ l.hexDump

theorem toList_fieldLine (l : Layout) (f : Field) :
    (fieldLine l f).toList = f.describe (l.current f) := by
  cases hk : f.kind with
  | constant =>
    have hcurrent : l.current f =
        Scalar.decode l.config.byteOrder (Buffer.slice l.bytes f.offset f.unit) := by
      have hc : f.isConstant = true := beq_iff_eq.mpr hk
      rw [Layout.current, if_pos hc, Field.element, Field.address, Nat.zero_mul, Nat.add_zero]
    rw [f.describe_of_constant hk, hcurrent, fieldLine, hk]
  | space => rw [f.describe_of_space hk, fieldLine, hk]

theorem dump?_eq (hl : l.Sound) : dump? l = some (page l) := by
  have hlines : (l.fields.map fun f => (fieldLine l f).toList) = l.tableLines := by
    simp only [toList_fieldLine, Layout.tableLines]
  -- `delta`, since the equation of a definition with text literals is slow to derive.
  delta dump? page
  rw [hl.display_eq_unlines, hlines, ← Text.ofList_decimal]

theorem bind_eq_ok_iff {ε α β : Type} {step : Except ε α} {next : α → Except ε β} {b : β} :
    step.bind next = .ok b ↔ ∃ a, step = .ok a ∧ next a = .ok b := by
  cases step <;> simp [Except.bind]

theorem mapError_eq_ok_iff {ε ε' α : Type} {step : Except ε α} {failure : ε → ε'} {a : α} :
    step.mapError failure = .ok a ↔ step = .ok a := by
  cases step <;> simp [Except.mapError]

theorem layoutOfFile_eq_ok_iff {file : File} : layoutOfFile around file config = .ok l ↔
    ∃ text, file.text = .ok text ∧ Layout.build around.granted text config = .ok l := by
  rw [layoutOfFile]
  cases file.text with
  | error fault => simp
  | ok text => simp [mapError_eq_ok_iff]

theorem withImage_eq_ok_iff {l' : Layout} : withImage around l image = .ok l' ↔
    ∃ data, imageBytes? around image = some data ∧ l'.OverlaidBy data l := by
  cases image with
  | none => simp [withImage, imageBytes?, Layout.overlaidBy_nil_iff, eq_comm]
  | some name =>
    rw [withImage, Layout.loadImage, imageBytes?]
    cases around.files name <;> simp [File.bytes, Layout.overlaidBy_iff, eq_comm]

theorem layoutFor_eq_ok_iff (h : settings around first others = .ok (config, image)) :
    layoutFor around definition first others = .ok l ↔
      ∃ text data built, (around.files definition).text = .ok text ∧
        imageBytes? around image = some data ∧
        Layout.build around.granted text config = .ok built ∧ l.OverlaidBy data built := by
  have hlayout : layoutFor around definition first others =
      (layoutOfFile around (around.files definition) config).bind fun l =>
        withImage around l image := by
    rw [layoutFor_eq_bind, h]
    rfl
  simp only [hlayout, bind_eq_ok_iff, layoutOfFile_eq_ok_iff, withImage_eq_ok_iff]
  constructor
  · rintro ⟨built, ⟨text, htext, hbuilt⟩, data, hdata, hl⟩
    exact ⟨text, data, built, htext, hdata, hbuilt, hl⟩
  · rintro ⟨text, data, built, htext, hdata, hbuilt, hl⟩
    exact ⟨built, ⟨text, htext, hbuilt⟩, data, hdata, hl⟩

/-- **Success.** With its settings a run succeeds if the definition can be read and built and the
image, if one is named, can be read. It shows the layout with the image over it. -/
theorem runTexts_eq_iff (h : settings around first others = .ok (config, image)) (program : String)
    {output errors : String} :
    runTexts around (program :: definition :: first :: others) = .exited 0 output errors ↔
      errors = "" ∧ ∃ text data built shown, (around.files definition).text = .ok text ∧
        imageBytes? around image = some data ∧
        Layout.build around.granted text config = .ok built ∧
        Layout.OverlaidBy shown data built ∧ output = page shown := by
  have hshown : (∃ text data built shown, (around.files definition).text = .ok text ∧
      imageBytes? around image = some data ∧
      Layout.build around.granted text config = .ok built ∧
      Layout.OverlaidBy shown data built ∧ output = page shown) ↔
      ∃ shown, layoutFor around definition first others = .ok shown ∧ output = page shown := by
    simp only [layoutFor_eq_ok_iff h]
    constructor
    · rintro ⟨text, data, built, shown, htext, hdata, hbuilt, hshown, hpage⟩
      exact ⟨shown, ⟨text, data, built, htext, hdata, hbuilt, hshown⟩, hpage⟩
    · rintro ⟨shown, ⟨text, data, built, htext, hdata, hbuilt, hshown⟩, hpage⟩
      exact ⟨text, data, built, shown, htext, hdata, hbuilt, hshown, hpage⟩
  rw [hshown, runTexts]
  cases hlayout : layoutFor around definition first others with
  | error failure => simp
  | ok l =>
    simp only [dump?_eq (sound_of_layoutFor hlayout), Outcome.exited.injEq, Except.ok.injEq,
      true_and, exists_eq_left']
    rw [and_comm, eq_comm (a := "") (b := errors), eq_comm (a := page l)]

/-- **Forms of the settings.** A configuration file and three words that give the same configuration
lead to the same run, if the same image is named behind them or none, whatever else stands behind
it. The run succeeds if the definition can be read and built and the image can be read. It shows the
layout of the definition with the image over it: its first bytes are those of the image, as many as
there are in both, and the others have their initial values; and each constant shows the value of
the bytes where it stands. -/
theorem settings_forms_agree {cfg json width byteOrder padding : String} {rest rest' : List String}
    (hname : namesConfigFile cfg = true) (hjson : (around.files cfg).text = .ok json)
    (hconfig : Config.ofJson around.readConfig json = .ok config)
    (hwidth : Width.ofText width = .ok config.width)
    (horder : ByteOrder.ofText byteOrder = .ok config.byteOrder)
    (hpadding : Padding.ofText padding = .ok config.padding) (hrest : rest.head? = rest'.head?)
    (program definition : String) :
    run around ((program :: definition :: cfg :: rest).map .text) =
        run around ((program :: definition :: width :: byteOrder :: padding :: rest').map .text) ∧
      ∀ output errors,
        run around ((program :: definition :: cfg :: rest).map .text) = .exited 0 output errors ↔
          errors = "" ∧ ∃ text data built shown, (around.files definition).text = .ok text ∧
            imageBytes? around rest.head? = some data ∧
            Layout.build around.granted text config = .ok built ∧
            Layout.OverlaidBy shown data built ∧ output = page shown := by
  have hfile := settings_of_file hname hjson hconfig rest
  have hwords : settings around width (byteOrder :: padding :: rest') =
      .ok (config, rest'.head?) := settings_of_words hwidth horder hpadding rest'
  rw [run_map_text, run_map_text]
  refine ⟨?_, fun output errors => runTexts_eq_iff hfile program⟩
  simp only [runTexts, layoutFor, hfile, hwords, hrest]

/-- An image that is shorter than the layout and ends inside a constant, with words that are not in
their shortest form and an argument behind the image. -/
theorem settings_forms_agree_short_image :
    let json := "\x7b\"width\":32,\"ordering\":\"little\",\"padding\":\"none\"\x7d"
    let around := Surroundings.usual (fun name =>
      if name = "d" then some "a dc.b 1 b dc.w 2".toUTF8.data.toList
      else if name = "c.json" then some json.toUTF8.data.toList
      else if name = "i" then some [9, 1]
      else none) (· ≤ 1024)
    let shown : Layout := ⟨⟨.bits32, .little, .none⟩,
      [⟨"a", .constant, 1, 0, 1⟩, ⟨"b", .constant, 2, 1, 2⟩], ⟨[9, 1, 0]⟩⟩
    Config.ofJson around.readConfig json = .ok shown.config ∧
      run around (["dump", "d", "c.json", "i"].map .text) =
        run around (["dump", "d", " +32", "Little", "none\n", "i", "more"].map .text) ∧
      run around (["dump", "d", "c.json", "i"].map .text) = .exited 0 (page shown) "" := by
  intro json around shown
  have hconfig : Config.ofJson around.readConfig json = .ok shown.config := by decide +kernel
  have hbuilt : Layout.build around.granted "a dc.b 1 b dc.w 2" shown.config =
      .ok { shown with buffer := ⟨[1, 2, 0]⟩ } := by decide +kernel
  have hname : namesConfigFile "c.json" = true := by decide +kernel
  have hjson : (around.files "c.json").text = .ok json := by decide +kernel
  have hwidth : Width.ofText " +32" = .ok shown.config.width := by decide +kernel
  have horder : ByteOrder.ofText "Little" = .ok shown.config.byteOrder := by decide +kernel
  have hpadding : Padding.ofText "none\n" = .ok shown.config.padding := by decide +kernel
  have hrest : ["i"].head? = ["i", "more"].head? := rfl
  obtain ⟨hrun, hsuccess⟩ :=
    settings_forms_agree hname hjson hconfig hwidth horder hpadding hrest "dump" "d"
  refine ⟨hconfig, hrun, (hsuccess _ _).mpr ⟨rfl, _, [9, 1], _, shown, ?_, rfl, hbuilt, ?_, rfl⟩⟩
  · decide +kernel
  · exact Layout.overlaidBy_iff.mpr (by decide +kernel)

end CommandLine

end BinaryLayout
