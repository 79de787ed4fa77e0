import UdpAnalyzer.Lib.Text
import UdpAnalyzer.Models

/-! The unit of a process, read from its cgroup file (`unit_for_pid`,
`unit_from_cgroup_text`). -/

namespace UdpAnalyzer

/-- Whether a part of a cgroup path is taken for a unit. -/
def isUnitPart (part : Str) : Bool :=
  ".service".toList.isSuffixOf part && !"user@".toList.isPrefixOf part

/-- The units of one line of a cgroup file; a line without a colon is skipped. -/
def unitsOfLine (line : Str) : List Str :=
  match afterLast ':' line with
  | none => []
  | some path => (path.splitOn '/').filter isUnitPart

/-- `unit_from_cgroup_text`: the last unit of the file. -/
def unitFromCgroupText (text : Str) : Str := ((splitLines text).flatMap unitsOfLine).getLast?.getD []

/-- `unit_for_pid` on what reading `/proc/<pid>/cgroup` gave: the text, or nothing
when the file cannot be read. -/
def unitOfCgroupFile (file : Option Str) : Str := unitFromCgroupText (file.getD [])

example : unitFromCgroupText
    "0::/user.slice/user-1000.slice/user@1000.service/app.slice/ffmpeg@a.service\n".toList =
      "ffmpeg@a.service".toList := by
  decide

end UdpAnalyzer
