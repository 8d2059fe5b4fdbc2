import Molten.Log.FileSink
import Molten.Text.Format

namespace Molten.Log.SelfLog

open Molten.Text

/-! The log that the extension keeps of itself. -/

/-- `struct tm` -/
structure LocalTime where
  date : LocalDate
  hour : Nat
  minute : Nat
  second : Nat
  deriving DecidableEq

def digits (number : Nat) : Block := Block.ofString (twoDigits number)

/-- `strftime` with `%Y-%m-%d %H:%M:%S` -/
def strftime (time : LocalTime) : Block :=
  let month := monthAndDay (monthLengths time.date.year) time.date.yday
  Format.decimal time.date.year ++ 45 :: (digits month.1 ++ 45 ::
    (digits month.2 ++ 32 :: (digits time.hour ++ 58 ::
      (digits time.minute ++ 58 :: digits time.second))))

inductive SlogType
  | stdout
  | file
  deriving DecidableEq, Repr

/-- `MOLTEN_LOG_LEVEL`, from 0 for debug to 4 for fatal. -/
def moltenLogLevel : Nat := 0

def levelNames : List Block :=
  ["DEBUG", "INFO", "WARN", "ERROR", "FATAL"].map Block.ofString

def levelColors : List Block :=
  ["\x1b[36m", "\x1b[32m", "\x1b[33m", "\x1b[31m", "\x1b[35m"].map
    Block.ofString

def colorFormat : Block :=
  Block.ofString "%s %s%-5s\x1b[0m  \x1b[90m%s:%d:\x1b[0m "

def normalFormat : Block := Block.ofString "%s %-5s %s:%d: "

/-- `char log_buf[512000]` -/
def logBufSize : Nat := 512000

/-- The C string in `log_buf` when bytes and a NUL are written behind the one
that was there. -/
def writeBehind (logBuf bytes : Block) : Option Block :=
  if logBuf.length + bytes.length < logBufSize then
    some ((logBuf ++ bytes).takeWhile (· != 0))
  else none

/-- `vsprintf(log_buf + strlen(log_buf), fmt, args)` -/
def vsprintf (logBuf fmt : Block) (args : List Format.Arg) : Option Block := do
  let out ← Format.format none fmt args
  writeBehind logBuf out

/-- `molten_slog`, with the contents of the two files it may write to. -/
structure MoltenSlog where
  type : SlogType
  logFile : Block
  stdout : Block

/-- `fprintf(fp, log_buf, NULL)` and `fflush` -/
def MoltenSlog.fprintf (slg : MoltenSlog) (logBuf : Block) :
    Option MoltenSlog := do
  let out ← Format.format none logBuf [.null]
  match slg.type with
  | .file => some { slg with logFile := slg.logFile ++ out }
  | .stdout => some { slg with stdout := slg.stdout ++ out }

/-- `slog_record` at a time. -/
def slogRecord (slg : MoltenSlog) (time : LocalTime) (level : Nat)
    (file : Block) (line : Nat) (fmt : Block) (args : List Format.Arg) :
    Option MoltenSlog :=
  if level < moltenLogLevel then some slg
  else do
    let name ← levelNames[level]?
    let color ← levelColors[level]?
    let logBuf ←
      match slg.type with
      | .file =>
          vsprintf [] normalFormat
            [.string (strftime time), .string name, .string file, .int line]
      | .stdout =>
          vsprintf [] colorFormat
            [.string (strftime time), .string color, .string name,
              .string file, .int line]
    let logBuf ← vsprintf logBuf fmt args
    let logBuf ← writeBehind logBuf [10]
    slg.fprintf logBuf

/-! What it is to write. -/

def linePrefix (time : LocalTime) (name file : Block) (line : Nat) : Block :=
  strftime time ++ 32 :: (name ++ List.replicate (5 - name.length) 32 ++
    32 :: (file ++ 58 :: (Format.decimal line ++ [58, 32])))

/-- A message that is recorded, without a NUL and short enough for the
buffer. -/
structure Message where
  time : LocalTime
  level : Nat
  name : Block
  file : Block
  line : Nat
  fmt : Block
  args : List Format.Arg
  text : Block
  logged : moltenLogLevel ≤ level
  named : levelNames[level]? = some name
  formatted : Format.format none fmt args = some text
  file_noNul : (0 : UInt8) ∉ file
  text_noNul : (0 : UInt8) ∉ text
  fits : (linePrefix time name file line).length + text.length + 1 < logBufSize

namespace Message

def expected (m : Message) : Block :=
  linePrefix m.time m.name m.file m.line ++ (m.text ++ [10])

/-- The log file gets the line, and nothing else changes. -/
def Verbatim (m : Message) : Prop :=
  ∀ logFile stdout,
    slogRecord ⟨.file, logFile, stdout⟩ m.time m.level m.file m.line m.fmt
      m.args = some ⟨.file, logFile ++ m.expected, stdout⟩

/-! The bytes of a line. -/

theorem not_digit_of_lt {byte : UInt8} (low : byte < 42) :
    Block.isDigit byte = false := by
  have below : ¬ 48 ≤ byte := UInt8.not_le.mpr
    (UInt8.lt_of_lt_of_le low (by decide))
  simp [Block.isDigit, below]

theorem digitChar_ge (number : Nat) :
    42 ≤ UInt8.ofNat (Nat.digitChar number).toNat := by
  rcases Nat.lt_or_ge number 16 with small | large
  · have every : ∀ digit < 16,
        42 ≤ UInt8.ofNat (Nat.digitChar digit).toNat := by decide
    exact every number small
  · have star : Nat.digitChar number = '*' := by
      simp [Nat.digitChar, show ∀ digit < 16, number ≠ digit by omega]
    rw [star]
    decide

/-- The bytes below `*` are in no digit. -/
theorem notMem_digits {byte : UInt8} (low : byte < 42) (number : Nat) :
    byte ∉ digits number := by
  have apart : ∀ digit, byte ≠ UInt8.ofNat (Nat.digitChar digit).toNat :=
    fun digit => UInt8.ne_of_lt (UInt8.lt_of_lt_of_le low (digitChar_ge digit))
  simp [digits, twoDigits, Block.ofString, apart]

theorem notMem_strftime {byte : UInt8} (low : byte < 42)
    (punctuation : byte ∉ ([32, 45, 58] : Block)) (time : LocalTime) :
    byte ∉ strftime time := by
  have twoDigits := notMem_digits low
  have year := Format.notMem_decimal (not_digit_of_lt low) time.date.year
  simp only [List.mem_cons, List.not_mem_nil, or_false, not_or] at punctuation
  simp [strftime, twoDigits, year, punctuation]

theorem notMem_linePrefix {byte : UInt8} (low : byte < 42)
    (punctuation : byte ∉ ([32, 45, 58] : Block)) {time : LocalTime}
    {name file : Block} {line : Nat} (name_absent : byte ∉ name) :
    byte ∉ linePrefix time name file line ↔ byte ∉ file := by
  have date := notMem_strftime low punctuation time
  have number := Format.notMem_decimal (not_digit_of_lt low) line
  simp only [List.mem_cons, List.not_mem_nil, or_false, not_or] at punctuation
  simp [linePrefix, date, number, name_absent, punctuation]

theorem name_plain (m : Message) : (0 : UInt8) ∉ m.name ∧ 37 ∉ m.name := by
  have every : ∀ name ∈ levelNames, (0 : UInt8) ∉ name ∧ 37 ∉ name := by
    decide
  exact every m.name (List.mem_of_getElem? m.named)

theorem noNul_linePrefix (m : Message) :
    (0 : UInt8) ∉ linePrefix m.time m.name m.file m.line :=
  (notMem_linePrefix (by decide) (by decide) m.name_plain.1).mpr m.file_noNul

theorem percent_notMem_expected (m : Message) :
    Format.percent ∉ m.expected ↔
      Format.percent ∉ m.file ∧ Format.percent ∉ m.text := by
  have start : Format.percent ∉ linePrefix m.time m.name m.file m.line ↔
      Format.percent ∉ m.file :=
    notMem_linePrefix (by decide) (by decide) m.name_plain.2
  rw [expected, List.mem_append, not_or, start, List.mem_append, not_or]
  exact and_congr_right fun _ => and_iff_left (by decide)

/-! The steps of `slog_record`. -/

theorem format_normalFormat (time name file : Block) (line : Nat) :
    Format.format none normalFormat
        [.string time, .string name, .string file, .int line] =
      some (time ++ 32 :: (name ++ List.replicate (5 - name.length) 32 ++
        32 :: (file ++ 58 :: (Format.decimal line ++ [58, 32])))) := by
  have spelled : normalFormat =
      [37, 115, 32, 37, 45, 53, 115, 32, 37, 115, 58, 37, 100, 58, 32] := by
    decide
  have minus : Format.isInner 45 = true := by decide
  have five : Format.isInner 53 = true := by decide
  have string : Format.isInner 115 = false := by decide
  have int : Format.isInner 100 = false := by decide
  rw [spelled]
  simp [Format.format, Format.percent, minus, five, string, int,
    Format.convert_string, Format.convert_string_left, Format.convert_int]

theorem writeBehind_eq {logBuf bytes : Block}
    (room : logBuf.length + bytes.length < logBufSize)
    (logBuf_noNul : (0 : UInt8) ∉ logBuf) (noNul : (0 : UInt8) ∉ bytes) :
    writeBehind logBuf bytes = some (logBuf ++ bytes) := by
  rw [writeBehind, if_pos room, Block.takeWhile_absent]
  simp [logBuf_noNul, noNul]

theorem slogRecord_eq (m : Message) (logFile stdout : Block) :
    slogRecord ⟨.file, logFile, stdout⟩ m.time m.level m.file m.line m.fmt
        m.args =
      (Format.format none m.expected [.null]).map fun out =>
        ⟨.file, logFile ++ out, stdout⟩ := by
  have room := m.fits
  have header : vsprintf [] normalFormat
      [.string (strftime m.time), .string m.name, .string m.file,
        .int m.line] = some (linePrefix m.time m.name m.file m.line) := by
    rw [vsprintf, format_normalFormat]
    refine @writeBehind_eq [] (linePrefix m.time m.name m.file m.line) ?_
      List.not_mem_nil m.noNul_linePrefix
    rw [List.length_nil]
    omega
  have message : vsprintf (linePrefix m.time m.name m.file m.line) m.fmt
      m.args = some (linePrefix m.time m.name m.file m.line ++ m.text) := by
    rw [vsprintf, m.formatted]
    exact writeBehind_eq (by omega) m.noNul_linePrefix m.text_noNul
  have newline : writeBehind (linePrefix m.time m.name m.file m.line ++ m.text)
      [10] = some m.expected := by
    rw [expected, ← List.append_assoc]
    refine writeBehind_eq ?_ ?_ (by decide)
    · rw [List.length_append, List.length_singleton]
      omega
    · simp [m.noNul_linePrefix, m.text_noNul]
  obtain ⟨color, colored⟩ : ∃ color, levelColors[m.level]? = some color := by
    refine ⟨_, List.getElem?_eq_getElem ?_⟩
    have within := (List.getElem?_eq_some_iff.mp m.named).1
    rw [levelNames, List.length_map] at within
    rw [levelColors, List.length_map]
    exact within
  rw [slogRecord, if_neg (Nat.not_lt.mpr m.logged), m.named, colored]
  simp only [Option.bind_eq_bind, Option.bind_some, header, message, newline,
    MoltenSlog.fprintf]
  cases Format.format none m.expected [.null] with
  | none => rfl
  | some out => rfl

theorem verbatim_iff (m : Message) :
    m.Verbatim ↔ Format.percent ∉ m.expected := by
  have plain : ∀ arg ∈ [Format.Arg.null], arg.Plain := by
    intro arg member
    exact List.mem_singleton.mp member ▸ Format.plain_null
  rw [← Format.format_eq_self_iff plain]
  constructor
  · intro verbatim
    have printed := verbatim [] []
    rw [slogRecord_eq] at printed
    obtain ⟨out, formatted, same⟩ := Option.map_eq_some_iff.mp printed
    rw [formatted]
    exact congrArg (some ∘ MoltenSlog.logFile) same
  · intro same logFile stdout
    rw [slogRecord_eq, same]
    rfl

/-- A line is written as it is just when neither the name of the source file
nor the message has a percent sign. -/
theorem slogRecord_verbatim_iff (m : Message) :
    m.Verbatim ↔ Format.percent ∉ m.file ∧ Format.percent ∉ m.text := by
  rw [verbatim_iff, percent_notMem_expected]

/-- `SLOG(SLOG_INFO, "%s", "a%%b")` -/
def twoPercents : Message where
  time := ⟨⟨2024, 59, by decide⟩, 12, 0, 7⟩
  level := 1
  name := Block.ofString "INFO"
  file := Block.ofString "molten_log.c"
  line := 39
  fmt := Block.ofString "%s"
  args := [.string (Block.ofString "a%%b")]
  text := Block.ofString "a%%b"
  logged := by decide
  named := by decide
  formatted := by decide
  file_noNul := by decide
  text_noNul := by decide
  fits := by decide

theorem twoPercents_not_verbatim : ¬ twoPercents.Verbatim := by
  rw [verbatim_iff, percent_notMem_expected]
  decide

end Message

/-! Lines that are written on the way. -/

/-- The text of a line, with a newline behind it, is printed once more as a
format. -/
def Printable (text : Block) : Prop :=
  (Format.format none (text ++ [10]) [.null]).isSome

instance (text : Block) : Decidable (Printable text) :=
  inferInstanceAs (Decidable (_ = true))

theorem printable_of_plain {text : Block} (plain : Format.percent ∉ text) :
    Printable text := by
  have line : Format.percent ∉ text ++ [10] := by
    rw [List.mem_append, not_or]
    exact ⟨plain, by decide⟩
  rw [Printable, Format.format_plain line]
  rfl

/-- A source file that writes lines into an open log file, and when it writes
which. -/
structure Slogger where
  clock : Nat → LocalTime
  file : Block
  file_noNul : (0 : UInt8) ∉ file
  file_plain : Format.percent ∉ file
  room : ∀ i, (strftime (clock i)).length + file.length + 1024 < logBufSize

namespace Slogger

/-- `SLOG`.  What is in the log file is not looked at. -/
def slog (slogger : Slogger) (i level line : Nat) (fmt : Block)
    (args : List Format.Arg) : Option Unit :=
  (slogRecord ⟨.file, [], []⟩ (slogger.clock i) level slogger.file line fmt
    args).map fun _ => ()

theorem length_linePrefix_le (time : LocalTime) {name : Block}
    (named : name ∈ levelNames) (file : Block) (line : Nat) :
    (linePrefix time name file line).length ≤
      (strftime time).length + file.length +
        (Format.decimal line).length + 10 := by
  have every : ∀ name ∈ levelNames, name.length ≤ 5 := by decide
  have short := every name named
  simp only [linePrefix, List.length_append, List.length_cons,
    List.length_replicate, List.length_nil]
  omega

/-- A text that is not too long is logged just when it is printable. -/
theorem slog_eq (slogger : Slogger) {i level line : Nat} {name fmt : Block}
    {args : List Format.Arg} {text : Block}
    (logged : moltenLogLevel ≤ level) (named : levelNames[level]? = some name)
    (formatted : Format.format none fmt args = some text)
    (noNul : (0 : UInt8) ∉ text)
    (short : (Format.decimal line).length + text.length < 1000) :
    slogger.slog i level line fmt args =
      if Printable text then some () else none := by
  have room := slogger.room i
  have length := length_linePrefix_le (slogger.clock i)
    (List.mem_of_getElem? named) slogger.file line
  let message : Message :=
    { time := slogger.clock i, level, name, file := slogger.file, line, fmt,
      args, text, logged, named, formatted
      file_noNul := slogger.file_noNul
      text_noNul := noNul
      fits := by omega }
  have plain : Format.percent ∉
      linePrefix (slogger.clock i) name slogger.file line :=
    (Message.notMem_linePrefix (by decide) (by decide)
      message.name_plain.2).mpr slogger.file_plain
  have record := message.slogRecord_eq [] []
  rw [Message.expected, Format.format_append plain] at record
  rw [slog, record, Option.map_map, Option.map_map]
  cases printed : Format.format none (text ++ [10]) [.null] with
  | none => simp [Printable, printed]
  | some out => simp [Printable, printed]

end Slogger

end Molten.Log.SelfLog
