import HkKernel.Word

/-!
# The kernel command line

`cmdline.rs` splits the command line at whitespace and acts on three kinds of option:
`usb_trace` turns USB tracing on, `console=<device>[,<baud>]` fills the next of four slots of the
console table (`CMDLINE_CONSOLE`), and `root=<device>` sets the root device (`CMDLINE_ROOT`);
any other option is ignored. The console and mount code read the two tables back.

Strings are lists of characters. The tables store bytes: the first 16 UTF-8 bytes of a console
device and the first 64 of the root path, read back through `core::str::from_utf8`. On a byte
prefix of a string that succeeds exactly when the prefix ends at a character boundary, and
gives the characters before it (`fromUtf8Prefix`); so an entry of a table is kept here as the
string its bytes were copied from, with the number of bytes copied.

* `parseBaudRate_eq`: the saturating decimal loop of `parse_baud_rate` gives the value of the
  leading digits, or `u32::MAX` when that is larger;
* `console_queries_after_parseCmdline`: after `parse_cmdline` at boot, the console queries
  answer from the first four `console=` options, in order; so the primary console is the
  fourth `console=` option, not the last, once there are more than four;
* `deviceName_ofArg`: a console device reads back whole up to 16 bytes; a longer one reads back
  as its first 16 bytes, or as `""` when they end inside a character;
* `getRootDevice_parseCmdline`: the root device is the last `root=` option's, cut to 64 bytes;
  it reads back as `None` when that option is empty or its 64 bytes end inside a character;
* `usbTrace_parseCmdline`: a `usb_trace` option anywhere turns USB tracing on for good.
-/

namespace HkKernel.Cmdline

/-- `MAX_CONSOLE_SPECS`. -/
def maxConsoleSpecs : Nat := 4

/-! ## Strings -/

/-- `char::is_whitespace`: space, tab to carriage return, and the other Unicode `White_Space`
    characters. -/
def isWhitespace (c : Char) : Bool :=
  let v := c.toNat
  v == 0x20 || (0x09 ≤ v && v ≤ 0x0D) || v == 0x85 || v == 0xA0 || v == 0x1680 ||
    (0x2000 ≤ v && v ≤ 0x200A) || v == 0x2028 || v == 0x2029 || v == 0x202F || v == 0x205F ||
    v == 0x3000

/-- `str::split_whitespace`: the non-empty pieces between whitespace characters. -/
def splitWhitespace (s : List Char) : List (List Char) :=
  (s.splitOnP isWhitespace).filter fun piece => !piece.isEmpty

/-- `str::as_bytes`: the UTF-8 encoding. -/
def asBytes (s : List Char) : List UInt8 := s.flatMap String.utf8EncodeChar

/-- `core::str::from_utf8` of the first `n` bytes of `s.as_bytes()`: they are UTF-8 exactly when
    they end where the encoding of a character ends, and then they decode to the characters
    before that point. -/
def fromUtf8Prefix : List Char → Nat → Option (List Char)
  | _, 0 => some []
  | [], _ + 1 => none
  | c :: s, n + 1 =>
    if c.utf8Size ≤ n + 1 then (fromUtf8Prefix s (n + 1 - c.utf8Size)).map (c :: ·) else none

/-! ## Console specifications -/

/-- `char::to_digit(10)`. -/
def toDigit (c : Char) : Option UInt32 :=
  if c.isDigit then some (UInt32.ofNat (c.toNat - '0'.toNat)) else none

/-- One pass of `parse_baud_rate`'s loop over the digits. -/
def baudStep (result : UInt32) (c : Char) : UInt32 :=
  match toDigit c with
  | some digit => saturatingAdd (saturatingMul result 10) digit
  | none => result

/-- `parse_baud_rate`: the leading ASCII digits, read in decimal with saturating arithmetic;
    a suffix such as `n8` is ignored. -/
def parseBaudRate (s : List Char) : UInt32 := (s.takeWhile Char.isDigit).foldl baudStep 0

/-- A console specification (`ConsoleSpec`). Its `device` array holds the first `deviceLen`
    UTF-8 bytes of a string, which stands for the array here. -/
structure ConsoleSpec where
  device : List Char
  deviceLen : Nat
  baudRate : UInt32
  deviceLen_le : deviceLen ≤ 16

namespace ConsoleSpec

/-- `ConsoleSpec::empty`. -/
def empty : ConsoleSpec := ⟨[], 0, 0, Nat.zero_le _⟩

/-- `ConsoleSpec::device_name`: the device bytes as a string, or `""` when they are not
    UTF-8. -/
def deviceName (spec : ConsoleSpec) : List Char :=
  (fromUtf8Prefix spec.device spec.deviceLen).getD []

/-- `ConsoleSpec::matches`. -/
def matchesName (spec : ConsoleSpec) (name : List Char) : Bool := spec.deviceName == name

/-- The specification `parse_console_option` builds from `arg`: the device before the first
    comma, its first 16 bytes, and the baud rate after the comma, if there is one. -/
def ofArg (arg : List Char) : ConsoleSpec :=
  let (device, baudStr) : List Char × Option (List Char) :=
    match arg.indexOf? ',' with
    | some pos => (arg.take pos, some (arg.drop (pos + 1)))
    | none => (arg, none)
  { device := device
    deviceLen := min (asBytes device).length 16
    baudRate := match baudStr with
      | some baud => parseBaudRate baud
      | none => 0
    deviceLen_le := Nat.min_le_right _ _ }

end ConsoleSpec

/-- The console table (`CmdlineConsole`): the first `count` slots are in use, and there are
    never more than `MAX_CONSOLE_SPECS`. -/
structure CmdlineConsole where
  specs : Mathlib.Vector ConsoleSpec maxConsoleSpecs
  count : Nat
  count_le : count ≤ maxConsoleSpecs

namespace CmdlineConsole

/-- `CmdlineConsole::new`. -/
def new : CmdlineConsole := ⟨Mathlib.Vector.replicate _ .empty, 0, Nat.zero_le _⟩

/-- `parse_console_option`: the next free slot takes `arg`'s specification; a full table is
    left as it is. -/
def parseConsoleOption (console : CmdlineConsole) (arg : List Char) : CmdlineConsole :=
  if h : console.count ≥ maxConsoleSpecs then console
  else
    { specs := console.specs.set ⟨console.count, Nat.lt_of_not_le h⟩ (ConsoleSpec.ofArg arg)
      count := console.count + 1
      count_le := Nat.lt_of_not_le h }

/-- The specifications in use, in order: what the queries read. -/
def inUse (console : CmdlineConsole) : List ConsoleSpec := console.specs.toList.take console.count

end CmdlineConsole

/-! ## The root device -/

/-- The root device (`RootDevice`). Its `path` array holds the first `pathLen` UTF-8 bytes of a
    string, which stands for the array here. -/
structure RootDevice where
  path : List Char
  pathLen : Nat
  pathLen_le : pathLen ≤ 64

namespace RootDevice

/-- `RootDevice::new`. -/
def new : RootDevice := ⟨[], 0, Nat.zero_le _⟩

/-- `RootDevice::path`: the path bytes as a string; `None` when there are none, or when they
    are not UTF-8. -/
def path? (root : RootDevice) : Option (List Char) :=
  if root.pathLen > 0 then fromUtf8Prefix root.path root.pathLen else none

/-- `RootDevice::set_path`: the first 64 bytes of `path`. -/
def setPath (root : RootDevice) (path : List Char) : RootDevice :=
  { root with path := path, pathLen := min (asBytes path).length 64,
              pathLen_le := Nat.min_le_right _ _ }

end RootDevice

/-! ## Parsing -/

/-- What `parse_cmdline` writes: the console table (`CMDLINE_CONSOLE`), the root device
    (`CMDLINE_ROOT`), and whether USB tracing is on (`usb::enable_usb_trace`; the USB module is
    not in the source). -/
structure State where
  console : CmdlineConsole
  root : RootDevice
  usbTrace : Bool

/-- The tables as the kernel starts. -/
def State.boot : State := ⟨.new, .new, false⟩

/-- `parse_root_option`. -/
def parseRootOption (root : RootDevice) (arg : List Char) : RootDevice := root.setPath arg

/-- One pass of `parse_cmdline`'s loop. -/
def parseOption (st : State) (option : List Char) : State :=
  if option = "usb_trace".toList then { st with usbTrace := true }
  else
    match "console=".toList.isPrefixOf? option with
    | some consoleArg => { st with console := st.console.parseConsoleOption consoleArg }
    | none =>
      match "root=".toList.isPrefixOf? option with
      | some rootArg => { st with root := parseRootOption st.root rootArg }
      | none => st

/-- `parse_cmdline`. -/
def parseCmdline (st : State) (cmdline : List Char) : State :=
  (splitWhitespace cmdline).foldl parseOption st

/-! ## Queries -/

/-- `is_cmdline_console`: whether a specification in use names the device. -/
def isCmdlineConsole (st : State) (name : List Char) : Bool :=
  st.console.inUse.any (·.matchesName name)

/-- `cmdline_console_count`. -/
def cmdlineConsoleCount (st : State) : Nat := st.console.count

/-- `get_cmdline_console`. -/
def getCmdlineConsole (st : State) (index : Nat) : Option ConsoleSpec :=
  if h : index < st.console.count then
    some (st.console.specs.get ⟨index, Nat.lt_of_lt_of_le h st.console.count_le⟩)
  else none

/-- `primary_cmdline_console`: the last specification in use. -/
def primaryCmdlineConsole (st : State) : Option ConsoleSpec :=
  if h : st.console.count > 0 then
    some (st.console.specs.get ⟨st.console.count - 1, by have := st.console.count_le; omega⟩)
  else none

/-- `get_root_device`. -/
def getRootDevice (st : State) : Option (List Char) := st.root.path?

/-- The arguments of the `console=` options, in order. -/
def consoleArgs (options : List (List Char)) : List (List Char) :=
  options.filterMap ("console=".toList.isPrefixOf? ·)

/-- The arguments of the `root=` options, in order. -/
def rootArgs (options : List (List Char)) : List (List Char) :=
  options.filterMap ("root=".toList.isPrefixOf? ·)

/-! ## Strings, as bytes -/

theorem length_asBytes_cons (c : Char) (s : List Char) :
    (asBytes (c :: s)).length = c.utf8Size + (asBytes s).length := by
  simp [asBytes]

theorem asBytes_eq_nil {s : List Char} : (asBytes s).length = 0 ↔ s = [] := by
  cases s with
  | nil => simp [asBytes]
  | cons c s =>
    simp only [length_asBytes_cons, reduceCtorEq, iff_false]; have := c.utf8Size_pos; omega

/-- The first `n` bytes of a string are UTF-8 when a prefix of it fills them exactly, and they
    decode to that prefix. -/
theorem fromUtf8Prefix_eq_some_iff {s p : List Char} {n : Nat} :
    fromUtf8Prefix s n = some p ↔ p <+: s ∧ (asBytes p).length = n := by
  induction s generalizing n p with
  | nil =>
    cases n with
    | zero =>
      simp only [fromUtf8Prefix, List.prefix_nil, Option.some.injEq]
      exact ⟨fun h => ⟨h.symm, h ▸ rfl⟩, fun h => h.1.symm⟩
    | succ n =>
      simp only [fromUtf8Prefix, List.prefix_nil, reduceCtorEq, false_iff, not_and]
      rintro rfl; simp [asBytes]
  | cons c s ih =>
    cases n with
    | zero =>
      simp only [fromUtf8Prefix, Option.some.injEq, asBytes_eq_nil]
      exact ⟨fun h => ⟨h ▸ List.nil_prefix, h.symm⟩, fun h => h.2.symm⟩
    | succ n =>
      rw [List.prefix_cons_iff]
      constructor
      · intro h
        unfold fromUtf8Prefix at h
        split_ifs at h with hc
        obtain ⟨q, hq, rfl⟩ := Option.map_eq_some'.1 h
        obtain ⟨hqs, hqn⟩ := ih.1 hq
        exact ⟨.inr ⟨q, rfl, hqs⟩, by rw [length_asBytes_cons]; omega⟩
      · rintro ⟨rfl | ⟨q, rfl, hqs⟩, hn⟩
        · simp [asBytes] at hn
        · rw [length_asBytes_cons] at hn
          rw [fromUtf8Prefix, if_pos (by omega), ih.2 ⟨hqs, by omega⟩]
          rfl

/-- All of a string's bytes decode back to it. -/
theorem fromUtf8Prefix_length_asBytes (s : List Char) : fromUtf8Prefix s (asBytes s).length = some s :=
  fromUtf8Prefix_eq_some_iff.2 ⟨List.prefix_rfl, rfl⟩

/-! ## The baud rate -/

/-- The value of a string of decimal digits. -/
def decimalValue (digits : List Char) : Nat :=
  digits.foldl (fun n c => 10 * n + (c.toNat - '0'.toNat)) 0

theorem toNat_lt_of_isDigit {c : Char} (hc : c.isDigit = true) : c.toNat - '0'.toNat < 10 := by
  simp only [Char.isDigit, Bool.and_eq_true, decide_eq_true_eq, ge_iff_le, U32.le_iff] at hc
  show c.val.toNat - 48 < 10
  have : (57 : UInt32).toNat = 57 := rfl
  omega

/-- A pass over a digit multiplies by ten and adds the digit, saturating. -/
theorem toNat_baudStep {c : Char} (hc : c.isDigit = true) (r : UInt32) :
    (baudStep r c).toNat = min (r.toNat * 10 + (c.toNat - '0'.toNat)) (2 ^ 32 - 1) := by
  have hd := toNat_lt_of_isDigit hc
  simp only [baudStep, toDigit, hc, if_true, U32.toNat_saturatingAdd, U32.toNat_saturatingMul,
    U32.toNat_ofNat]
  have : (10 : UInt32).toNat = 10 := rfl
  rw [this, Nat.mod_eq_of_lt (by omega)]
  omega

/-- Saturating at each pass is saturating once at the end: from a start that is the
    saturated value of `p`, the loop ends at the saturated value of the exact reading. -/
theorem toNat_foldl_baudStep {digits : List Char} (hd : ∀ c ∈ digits, c.isDigit = true)
    {r : UInt32} {p : Nat} (hr : r.toNat = min p (2 ^ 32 - 1)) :
    (digits.foldl baudStep r).toNat =
      min (digits.foldl (fun n c => 10 * n + (c.toNat - '0'.toNat)) p) (2 ^ 32 - 1) := by
  induction digits generalizing r p with
  | nil => exact hr
  | cons c digits ih =>
    refine ih (fun c' hc' => hd c' (List.mem_cons_of_mem c hc')) ?_
    dsimp only
    rw [toNat_baudStep (hd c (List.mem_cons_self c digits)), hr]
    omega

/-- `parse_baud_rate` reads the leading digits in decimal, and gives `u32::MAX` when their
    value does not fit. -/
theorem parseBaudRate_eq (s : List Char) :
    (parseBaudRate s).toNat = min (decimalValue (s.takeWhile Char.isDigit)) (2 ^ 32 - 1) :=
  toNat_foldl_baudStep (fun _ hc => List.mem_takeWhile_imp hc) rfl

example : parseBaudRate "115200n8".toList = 115200 := by decide

/-! ## Options -/

/-- `strip_prefix` gives the rest of the string after the prefix. -/
theorem isPrefixOf?_eq_some_iff {p s t : List Char} : p.isPrefixOf? s = some t ↔ s = p ++ t := by
  induction p generalizing s with
  | nil => simp [List.isPrefixOf?, eq_comm]
  | cons c p ih =>
    cases s with
    | nil => simp [List.isPrefixOf?]
    | cons d s =>
      simp only [List.isPrefixOf?, List.cons_append, List.cons.injEq]
      by_cases hcd : c = d
      · subst hcd; simp [ih]
      · simp [hcd, Ne.symm hcd]

/-- `console=` and `root=` options are told apart by their first character. -/
theorem root_isPrefixOf?_of_console {option a : List Char}
    (h : "console=".toList.isPrefixOf? option = some a) : "root=".toList.isPrefixOf? option = none := by
  rw [isPrefixOf?_eq_some_iff.1 h]; rfl

/-- An option changes the console table only when it is a `console=` option. -/
theorem console_parseOption (st : State) (option : List Char) :
    (parseOption st option).console = match "console=".toList.isPrefixOf? option with
      | some arg => st.console.parseConsoleOption arg
      | none => st.console := by
  unfold parseOption
  split_ifs with h
  · subst h; rfl
  · cases "console=".toList.isPrefixOf? option with
    | some arg => rfl
    | none => cases "root=".toList.isPrefixOf? option <;> rfl

/-- An option changes the root device only when it is a `root=` option. -/
theorem root_parseOption (st : State) (option : List Char) :
    (parseOption st option).root = match "root=".toList.isPrefixOf? option with
      | some arg => st.root.setPath arg
      | none => st.root := by
  unfold parseOption
  split_ifs with h
  · subst h; rfl
  · cases hc : "console=".toList.isPrefixOf? option with
    | some arg => rw [root_isPrefixOf?_of_console hc]
    | none => cases "root=".toList.isPrefixOf? option <;> rfl

/-! ## The console table -/

/-- Setting entry `i` of a list and keeping `i + 1` entries gives the first `i`, then the new
    entry. -/
theorem take_succ_set {α : Type} {l : List α} {i : Nat} (h : i < l.length) (x : α) :
    (l.set i x).take (i + 1) = l.take i ++ [x] := by
  rw [List.set_eq_take_append_cons_drop, if_pos h, List.take_append_eq_append_take,
    List.take_of_length_le (by simp), List.length_take_of_le h.le, Nat.add_sub_cancel_left]
  rfl

namespace CmdlineConsole

theorem length_inUse (console : CmdlineConsole) : console.inUse.length = console.count := by
  have := console.count_le
  simp only [inUse, List.length_take, Mathlib.Vector.toList_length]
  omega

/-- `parse_console_option` appends `arg`'s specification while there is a free slot. -/
theorem parseConsoleOption_spec (console : CmdlineConsole) (arg : List Char) :
    (console.parseConsoleOption arg).inUse =
        console.inUse ++ (if console.count < maxConsoleSpecs then [ConsoleSpec.ofArg arg] else []) ∧
      (console.parseConsoleOption arg).count =
        if console.count < maxConsoleSpecs then console.count + 1 else console.count := by
  unfold parseConsoleOption
  by_cases hfree : console.count < maxConsoleSpecs
  · rw [dif_neg (Nat.not_le.2 hfree), if_pos hfree, if_pos hfree]
    refine ⟨?_, rfl⟩
    simp only [inUse, Mathlib.Vector.toList_set]
    exact take_succ_set (by simpa using hfree) _
  · rw [dif_pos (Nat.le_of_not_lt hfree), if_neg hfree, if_neg hfree, List.append_nil]
    exact ⟨rfl, rfl⟩

end CmdlineConsole

/-- Over any options, the console table takes the `console=` options in order, as long as it
    has free slots. -/
theorem inUse_foldl_parseOption (options : List (List Char)) (st : State) :
    (options.foldl parseOption st).console.inUse = st.console.inUse ++
      ((consoleArgs options).take (maxConsoleSpecs - st.console.count)).map ConsoleSpec.ofArg := by
  induction options generalizing st with
  | nil => simp [consoleArgs]
  | cons option options ih =>
    rw [List.foldl_cons, ih, console_parseOption]
    cases h : "console=".toList.isPrefixOf? option with
    | none => simp only [consoleArgs, List.filterMap_cons, h]
    | some arg =>
      obtain ⟨hinUse, hcount⟩ := st.console.parseConsoleOption_spec arg
      simp only [consoleArgs, List.filterMap_cons, h, hinUse, hcount]
      by_cases hfree : st.console.count < maxConsoleSpecs
      · obtain ⟨k, hk⟩ : ∃ k, maxConsoleSpecs - st.console.count = k + 1 :=
          ⟨_, (Nat.succ_pred_eq_of_pos (Nat.sub_pos_of_lt hfree)).symm⟩
        rw [if_pos hfree, if_pos hfree, hk, List.take_succ_cons, List.map_cons, List.append_assoc,
          show maxConsoleSpecs - (st.console.count + 1) = k by omega]
        rfl
      · rw [if_neg hfree, if_neg hfree, List.append_nil, show maxConsoleSpecs - st.console.count = 0 by
          have := st.console.count_le; omega]
        rfl

/-! ## What the queries read -/

theorem getCmdlineConsole_eq (st : State) (index : Nat) :
    getCmdlineConsole st index = st.console.inUse[index]? := by
  unfold getCmdlineConsole
  split_ifs with h
  · rw [CmdlineConsole.inUse, List.getElem?_take_of_lt h, Mathlib.Vector.get_eq_get]
    simp
  · rw [List.getElem?_eq_none (by rw [CmdlineConsole.length_inUse]; omega)]

theorem primaryCmdlineConsole_eq (st : State) :
    primaryCmdlineConsole st = st.console.inUse.getLast? := by
  rw [List.getLast?_eq_getElem?, CmdlineConsole.length_inUse, ← getCmdlineConsole_eq]
  unfold primaryCmdlineConsole getCmdlineConsole
  by_cases h : st.console.count > 0
  · rw [dif_pos h, dif_pos (by omega)]
  · rw [dif_neg h, dif_neg (by omega)]

/-- The specifications of the first four `console=` options of a command line. -/
def firstConsoles (cmdline : List Char) : List ConsoleSpec :=
  ((consoleArgs (splitWhitespace cmdline)).take maxConsoleSpecs).map ConsoleSpec.ofArg

/-- After `parse_cmdline` at boot, the console queries answer from the first four `console=`
    options, in order: later ones are dropped, so that the primary console is the fourth, not
    the last, when there are more. -/
theorem console_queries_after_parseCmdline (cmdline name : List Char) (index : Nat) :
    cmdlineConsoleCount (parseCmdline .boot cmdline) = (firstConsoles cmdline).length ∧
      getCmdlineConsole (parseCmdline .boot cmdline) index = (firstConsoles cmdline)[index]? ∧
      primaryCmdlineConsole (parseCmdline .boot cmdline) = (firstConsoles cmdline).getLast? ∧
      (isCmdlineConsole (parseCmdline .boot cmdline) name = true ↔
        ∃ spec ∈ firstConsoles cmdline, spec.deviceName = name) := by
  have h : (parseCmdline .boot cmdline).console.inUse = firstConsoles cmdline := by
    rw [parseCmdline, inUse_foldl_parseOption]; rfl
  refine ⟨by rw [cmdlineConsoleCount, ← CmdlineConsole.length_inUse, h],
    by rw [getCmdlineConsole_eq, h], by rw [primaryCmdlineConsole_eq, h], ?_⟩
  simp [isCmdlineConsole, h, ConsoleSpec.matchesName]

example : (primaryCmdlineConsole (parseCmdline .boot
    "console=ttyS0 console=ttyS1,9600 console=ttyS2 console=ttyS3 console=ttyUSB0".toList)).map
      ConsoleSpec.deviceName = some "ttyS3".toList := by decide

/-! ## Device names -/

/-- The part of a string before its first comma, as `find(',')` and slicing give it. -/
theorem take_indexOf?_comma (arg : List Char) :
    (match arg.indexOf? ',' with
      | some pos => arg.take pos
      | none => arg) = arg.takeWhile (· != ',') := by
  induction arg with
  | nil => rfl
  | cons x xs ih =>
    by_cases hx : x = ','
    · subst hx; rfl
    · have hx' : (x == ',') = false := by simpa using hx
      rw [List.indexOf?, List.findIdx?_cons, if_neg (by rw [hx']; exact Bool.false_ne_true),
        List.findIdx?_succ, List.takeWhile_cons, if_pos (by simpa using hx), ← ih, List.indexOf?]
      cases xs.findIdx? (· == ',') <;> rfl

/-- The device of a `console=` option ends at its first comma. -/
theorem device_ofArg (arg : List Char) :
    (ConsoleSpec.ofArg arg).device = arg.takeWhile (· != ',') := by
  rw [← take_indexOf?_comma]
  unfold ConsoleSpec.ofArg
  cases arg.indexOf? ',' <;> rfl

theorem deviceLen_ofArg (arg : List Char) :
    (ConsoleSpec.ofArg arg).deviceLen = min (asBytes (ConsoleSpec.ofArg arg).device).length 16 := by
  unfold ConsoleSpec.ofArg
  cases arg.indexOf? ',' <;> rfl

theorem length_asBytes_le_of_prefix {p s : List Char} (h : p <+: s) :
    (asBytes p).length ≤ (asBytes s).length := by
  obtain ⟨r, rfl⟩ := h
  simp [asBytes]

/-- A console device reads back whole when it has at most 16 bytes. Past that, it reads back as
    the prefix that fills 16 bytes, or as `""` when no prefix does, the 16th byte falling inside
    a character. -/
theorem deviceName_ofArg (arg : List Char) :
    ((asBytes (arg.takeWhile (· != ','))).length ≤ 16 →
        (ConsoleSpec.ofArg arg).deviceName = arg.takeWhile (· != ',')) ∧
      (∀ p, p <+: arg.takeWhile (· != ',') → (asBytes p).length = 16 →
        (ConsoleSpec.ofArg arg).deviceName = p) ∧
      (16 < (asBytes (arg.takeWhile (· != ','))).length →
        (∀ p, p <+: arg.takeWhile (· != ',') → (asBytes p).length ≠ 16) →
        (ConsoleSpec.ofArg arg).deviceName = []) := by
  have hname : (ConsoleSpec.ofArg arg).deviceName = (fromUtf8Prefix (arg.takeWhile (· != ','))
      (min (asBytes (arg.takeWhile (· != ','))).length 16)).getD [] := by
    rw [ConsoleSpec.deviceName, deviceLen_ofArg, device_ofArg]
  refine ⟨fun hle => ?_, fun p hp h16 => ?_, fun hlong hnone => ?_⟩
  · rw [hname, Nat.min_eq_left hle, fromUtf8Prefix_length_asBytes]; rfl
  · have := length_asBytes_le_of_prefix hp
    rw [hname, Nat.min_eq_right (by omega), fromUtf8Prefix_eq_some_iff.2 ⟨hp, h16⟩]; rfl
  · rw [hname]
    cases h : fromUtf8Prefix (arg.takeWhile (· != ','))
        (min (asBytes (arg.takeWhile (· != ','))).length 16) with
    | none => rfl
    | some p =>
      obtain ⟨hp, hlen⟩ := fromUtf8Prefix_eq_some_iff.1 h
      exact absurd hlen (by rw [Nat.min_eq_right hlong.le]; exact hnone p hp)

/-! ## The root device -/

namespace RootDevice

/-- `set_path` keeps the first 64 bytes; `path` reads them back, or `None` for an empty path
    or one cut inside a character. -/
theorem path?_setPath (root : RootDevice) (path : List Char) :
    (root.setPath path).path? =
      if path = [] then none
      else if (asBytes path).length ≤ 64 then some path else fromUtf8Prefix path 64 := by
  unfold path? setPath
  by_cases h0 : path = []
  · subst h0; rfl
  · have hpos : 0 < (asBytes path).length := Nat.pos_of_ne_zero (mt asBytes_eq_nil.1 h0)
    rw [if_pos (by dsimp only; omega), if_neg h0]
    dsimp only
    split_ifs with hle
    · rw [Nat.min_eq_left hle, fromUtf8Prefix_length_asBytes]
    · rw [Nat.min_eq_right (by omega)]

end RootDevice

/-- Over any options, the root device is set by the last `root=` option, if there is one. -/
theorem root_foldl_parseOption (options : List (List Char)) (st : State) :
    (options.foldl parseOption st).root = match (rootArgs options).getLast? with
      | some arg => st.root.setPath arg
      | none => st.root := by
  induction options generalizing st with
  | nil => rfl
  | cons option options ih =>
    rw [List.foldl_cons, ih, root_parseOption]
    simp only [rootArgs, List.filterMap_cons]
    cases h : "root=".toList.isPrefixOf? option with
    | none => rfl
    | some arg =>
      dsimp only
      rw [List.getLast?_cons]
      cases (options.filterMap ("root=".toList.isPrefixOf? ·)).getLast? <;> rfl

/-- After `parse_cmdline`, the root device is the one the last `root=` option names, read back
    from its first 64 bytes: `None` when the option is empty, or when those bytes end inside a
    character. Without a `root=` option it is the one before. -/
theorem getRootDevice_parseCmdline (st : State) (cmdline : List Char) :
    getRootDevice (parseCmdline st cmdline) =
      match (rootArgs (splitWhitespace cmdline)).getLast? with
      | none => getRootDevice st
      | some arg =>
        if arg = [] then none
        else if (asBytes arg).length ≤ 64 then some arg else fromUtf8Prefix arg 64 := by
  rw [getRootDevice, parseCmdline, root_foldl_parseOption]
  cases (rootArgs (splitWhitespace cmdline)).getLast? with
  | none => rfl
  | some arg => exact RootDevice.path?_setPath _ arg

/-! ## USB tracing -/

theorem usbTrace_parseOption (st : State) (option : List Char) :
    (parseOption st option).usbTrace = (st.usbTrace || "usb_trace".toList == option) := by
  unfold parseOption
  split_ifs with h
  · simp [h]
  · have hne : ("usb_trace".toList == option) = false := beq_eq_false_iff_ne.2 (Ne.symm h)
    rw [hne, Bool.or_false]
    cases "console=".toList.isPrefixOf? option with
    | some arg => rfl
    | none => cases "root=".toList.isPrefixOf? option <;> rfl

/-- A `usb_trace` option anywhere on the command line turns USB tracing on, and no option turns
    it off. -/
theorem usbTrace_parseCmdline (st : State) (cmdline : List Char) :
    (parseCmdline st cmdline).usbTrace =
      (st.usbTrace || (splitWhitespace cmdline).contains "usb_trace".toList) := by
  rw [parseCmdline]
  induction splitWhitespace cmdline generalizing st with
  | nil => simp
  | cons option options ih =>
    rw [List.foldl_cons, ih, usbTrace_parseOption, List.contains_cons, Bool.or_assoc]

end HkKernel.Cmdline
