import Emaild.Logging
import Emaild.Relational.Table
import Emaild.Text.JsonText

/-!
The lines of the log. Each record is one JSON object on one line, and the output tells which
objects were written, whatever the texts in them are.
-/
namespace Emaild
open Relational Text

/-- A record when it is formatted: the message is put together, and so is the traceback. -/
structure LogRecord where
  created : Int
  levelname : String
  name : String
  message : String
  excText : Option String := none
  context : Dict String Document := Table.empty

theorem printable_itemSeparator : ∀ c ∈ [',', ' '], Document.Printable c :=
  List.all_iff_forall_prop.mp (by decide)

theorem printable_keySeparator : ∀ c ∈ [':', ' '], Document.Printable c :=
  List.all_iff_forall_prop.mp (by decide)

/-- The separators of `json.dumps` by default. -/
def spaced : Document.Separators where
  item := [',', ' ']
  key := [':', ' ']
  item_comma := rfl
  item_printable := printable_itemSeparator
  key_printable := printable_keySeparator

section Format
variable (w : WordChars)

/-- The payload of `JsonFormatter.format`. Its context may replace what is there. -/
def LogRecord.payload (r : LogRecord) : Dict String Document :=
  let base : Dict String Document := Dict.ofList [("ts", .text (isoFormat r.created)),
    ("level", .text r.levelname), ("component", .text r.name), ("message", .text r.message)]
  let told : Dict String Document := match r.excText with
    | some text => base.set "error" (.text (redact w text))
    | none => base
  r.context.rows.foldl (fun d e => d.set e.1 e.2) told

/-- `JsonFormatter.format` -/
def LogRecord.format (r : LogRecord) : List Char :=
  Document.dumps spaced (.object (r.payload w).rows)

/-- What a handler writes to the stream. -/
def logOutput (records : List LogRecord) : String :=
  .ofList (records.flatMap fun r => r.format w ++ ['\n'])

theorem LogRecord.format_inj {r r' : LogRecord} (same : r.format w = r'.format w) :
    r.payload w = r'.payload w :=
  Table.eq_of_rows (Document.object.inj (Document.dumps_injective spaced same))

theorem LogRecord.unbroken (r : LogRecord) : '\n' ∉ r.format w := fun mem =>
  absurd (Document.printable_dumps spaced _ _ mem) (by decide)

/-- The lines of the output are the records. -/
theorem splitOn_logOutput (records : List LogRecord) :
    (logOutput w records).toList.splitOn '\n' = records.map (LogRecord.format w) ++ [[]] := by
  rw [logOutput, String.toList_ofList]
  induction records with
  | nil => rfl
  | cons r records ih =>
      rw [List.flatMap_cons, List.append_assoc, List.singleton_append,
        List.splitOn_append_cons_self_of_not_mem (r.unbroken w), ih,
          List.map_cons, List.cons_append]

/-- No text of a record can end its line, begin another or change the record it stands in:
the output determines the objects, in their order. -/
theorem logOutput_eq_iff (records records' : List LogRecord) :
    logOutput w records = logOutput w records' ↔
      records.map (LogRecord.payload w) = records'.map (LogRecord.payload w) := by
  have lines : ∀ records records' : List LogRecord,
      records.map (LogRecord.format w) = records'.map (LogRecord.format w) ↔
        records.map (LogRecord.payload w) = records'.map (LogRecord.payload w) := by
    intro records
    induction records with
    | nil =>
        rintro (_ | ⟨r', records'⟩) <;> simp
    | cons r records ih =>
        rintro (_ | ⟨r', records'⟩)
        · simp
        · simp only [List.map_cons, List.cons.injEq, ih]
          refine and_congr_left' ⟨LogRecord.format_inj w, fun same => ?_⟩
          rw [LogRecord.format, same, LogRecord.format]
  rw [← lines]
  constructor
  · intro same
    have split := splitOn_logOutput w records
    rw [same, splitOn_logOutput] at split
    exact (List.append_inj' split rfl).1.symm
  · intro same
    apply String.toList_inj.mp
    simp only [logOutput, String.toList_ofList, List.flatMap_def]
    have ends : (records.map fun r => r.format w ++ ['\n']) =
        (records.map (LogRecord.format w)).map (· ++ ['\n']) := by rw [List.map_map]; rfl
    have ends' : (records'.map fun r => r.format w ++ ['\n']) =
        (records'.map (LogRecord.format w)).map (· ++ ['\n']) := by rw [List.map_map]; rfl
    rw [ends, ends', same]

end Format
end Emaild
