import Hyperchess.Data

/-!
# Errors

A `Problem` is something that the game itself reports, with a code and a message; a `Fault` is any way in which an
operation can fail. An illegal move is neither: it is answered, not reported.
-/

namespace Hyperchess

/-- What the game reports. What a report is about may be any plain value; a second value that is empty is left out. -/
inductive Problem where
  | general (message code : Data)
  | outOfBounds (position size : Data)
  | missingRule (id : Data)
  | layout (text reason : Data)
  | ruleDefinition (id reason : Data)
  | settings (name reason : Data)
  deriving DecidableEq, Repr, Inhabited

namespace Problem

/-- The code in front of the message. -/
def code : Problem → Data
  | general _ code => if code.truthy then code else .text "HikaError"
  | outOfBounds .. => .text "OUT_OF_BOUNDS"
  | missingRule _ => .text "MISSING_RULE"
  | layout .. => .text "LAYOUT_PARSE_ERROR"
  | ruleDefinition .. => .text "RULE_DEFINITION_ERROR"
  | settings .. => .text "CONFIG_ERROR"

/-- A value between two marks, or nothing if there is none. -/
def detail (opening : Text) (d : Data) (closing : Text) : Text :=
  if d.truthy then opening ++ d.display ++ closing else Text.empty

/-- The message: a text, unless it is given as another value. -/
def message : Problem → Data
  | general message _ => message
  | outOfBounds position size => .text ("坐标越界: " ++ position.display ++ detail " (棋盘尺寸: " size ")")
  | missingRule id => .text ("规则字典中不存在棋子类型: " ++ id.display)
  | layout text reason => .text ("布局解析失败: " ++ text.literal ++ detail " - " reason "")
  | ruleDefinition id reason => .text ("规则定义错误 - " ++ id.display ++ detail ": " reason "")
  | settings name reason => .text ("配置错误 - " ++ name.display ++ detail ": " reason "")

/-- Code and message. -/
def text (p : Problem) : Text := "[" ++ p.code.display ++ "] " ++ p.message.display

end Problem

/-- Why an operation fails. -/
inductive Fault where
  | problem (p : Problem)
  /-- The text of a move has no separator. -/
  | badMove (text : Text)
  /-- A board cannot have a negative extent. -/
  | negativeExtent
  /-- A value of the right kind that cannot be converted. -/
  | badValue (text : String)
  /-- A value of the wrong kind. -/
  | wrongType
  /-- A value that lacks what is asked of it. -/
  | lacksMember
  /-- A name that is not known. -/
  | unknownName
  | missingFile
  | isDirectory
  | notDirectory
  | existingFile
  /-- The bytes of a file are not UTF-8. -/
  | notText
  /-- A text has no UTF-8 form. -/
  | notEncodable (complaint : String)
  /-- A document that cannot be read. -/
  | badDocument
  /-- A cell address outside the grid. -/
  | badAddress
  /-- An integer that is too large for a floating point number. -/
  | tooLarge
  /-- The system refuses to open a file. -/
  | refused
  /-- A computation that is nested too deeply. -/
  | tooDeep
  /-- There is no room for so long a row. -/
  | noRoom
  /-- There is no room for so many cells. -/
  | noCells
  deriving DecidableEq, Repr, Inhabited

namespace Fault

/-! ## Problems as faults -/

/-- A square that is not on the board. -/
def outOfBounds (position size : Text) : Fault := .problem (.outOfBounds (.text position) (.text size))

/-- A kind without a rule. -/
def missingRule (id : Text) : Fault := .problem (.missingRule (.text id))

/-- A layout that cannot be read. -/
def layout (text reason : Text) : Fault := .problem (.layout (.text text) (.text reason))

/-- Malformed data for a rule. -/
def ruleDefinition (id reason : Text) : Fault := .problem (.ruleDefinition (.text id) (.text reason))

/-- Settings that cannot be used. -/
def settings (name reason : Text) : Fault := .problem (.settings (.text name) (.text reason))

/-- A name under which there are no settings. -/
def unknownSettings (name : Text) : Fault := settings name "未知的配置名称"

/-- The complaint about an integer with too many digits to be written. -/
def tooManyDigits (limit : Option Nat := some Integer.digitLimit) : Fault :=
  .badValue ("Exceeds the limit (" ++ (limit.elim "" fun digits => Integer.text digits) ++
    " digits) for integer string conversion; use sys.set_int_max_str_digits() to increase the limit")

/-- The message of a fault that has one. -/
def text? : Fault → Option Text
  | problem p => some p.text
  | badMove text => some ("无效的走法字符串: " ++ text)
  | negativeExtent => some "negative dimensions are not allowed"
  | badValue text => some text
  | _ => none

end Fault

namespace Data

/-- Refuses a value that cannot be shown because of an integer with too many digits. -/
def checkWritable (d : Data) : Except Fault Unit := if d.isWritable then .ok () else .error .tooManyDigits

/-- The form in which messages show a value, unless an integer in it has more digits than a limit. -/
def written (limit : Option Nat) (d : Data) : Except Fault Text :=
  if d.isWithin limit then .ok d.literal else .error (.tooManyDigits limit)

end Data

end Hyperchess
