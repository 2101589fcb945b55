import FtPing.CLib.Printf

namespace CLib

end CLib
