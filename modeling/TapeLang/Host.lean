/-! Hosts: what a running program writes its bytes to and reads its lines from. -/
namespace TapeLang
set_option autoImplicit false

/-- The surroundings of a running program. Each call hands back the host as it is afterwards, also
when the call fails. -/
class Host (η : Type) where
  /-- Takes one byte of output; `false` if it was refused. -/
  write : η → UInt8 → Bool × η
  /-- Makes the output taken so far visible; `false` if that was refused. -/
  flush : η → Bool × η
  /-- Gives the next line, with or without its line ending and empty after the last line; `none` if
  it cannot be read. -/
  readLine : η → Option String × η

end TapeLang
