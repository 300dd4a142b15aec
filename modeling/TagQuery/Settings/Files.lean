import TagQuery.Settings.Basic

namespace TagQuery

inductive FileContent
  | bytes (content : ByteArray)
  | failure (reason : String)

abbrev Files := String → FileContent

namespace Files

def text (files : Files) (path : String) : Except String String :=
  match files path with
  | .failure reason => .error reason
  | .bytes content =>
    match String.fromUTF8? content with
    | some text => .ok text
    | none => .error "stream did not contain valid UTF-8"

end Files

def Preferences.ofFile (defaults : Preferences) (files : Files) (path : String) :
    Except ConfigError Preferences :=
  match files.text path with
  | .error reason => .error (.unreadable path reason)
  | .ok text => ofText defaults text

end TagQuery
