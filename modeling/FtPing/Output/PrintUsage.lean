import FtPing.CLib.Strtol

namespace FtPing

open CLib

def print_usage : CString :=
  ("Usage: ft_ping [OPTION...] HOST\n" ++
    "Send ICMP ECHO_REQUEST packets to a network host.\n\n" ++
    "  -f             flood ping (root only)\n" ++
    "  -l PRELOAD     send PRELOAD packets as fast as possible " ++
    "first (root only)\n" ++
    "  -i WAIT        seconds between packets (default 1, " ++
    "fractional allowed)\n" ++
    "  -m TTL         set the IP Time To Live for outgoing packets\n" ++
    "  -o             exit successfully after the first reply\n" ++
    "  -p PATTERN     up to 16 pad bytes, as hex digits " ++
    "(e.g. -p ff)\n" ++
    "  -Q             do not show ICMP errors caused by our own " ++
    "packets\n" ++
    "  -q             quiet: only the banner and the summary\n" ++
    "  -r             bypass the routing table\n" ++
    "  -S SRC_ADDR    use SRC_ADDR as the source address\n" ++
    "  -s PACKETSIZE  data bytes to send (default 56, max 65507)\n" ++
    "  -T TTL         set the IP Time To Live for multicast " ++
    "packets\n" ++
    "  -t TIMEOUT     exit after TIMEOUT seconds regardless\n" ++
    "  -v             verbose: also report ICMP errors caused by " ++
    "other processes\n" ++
    "  -?, --help     give this help list\n\n" ++
    "  --bsd-flood    with -f, also send a packet on every reply.\n" ++
    "                 Off by default: inetutils-2.0 paces flood by\n" ++
    "                 its 10ms timer alone, and that is the\n" ++
    "                 behaviour this program matches. Turn this on\n" ++
    "                 for the BSD/macOS behaviour, where the rate is\n" ++
    "                 bound by the round-trip time instead.\n\n" ++
    "A raw socket is required, so ft_ping must run as root or with " ++
    "cap_net_raw.\n").toList

def print_usage_hint : CString := "Try 'ft_ping -?' for more information.\n".toList

end FtPing
