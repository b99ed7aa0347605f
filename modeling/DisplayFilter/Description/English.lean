import DisplayFilter.Description.Labels
/-!
# English labels

The labels of fields and operators and the words of descriptions when nothing else is given.
-/

namespace DisplayFilter.English

def fields : Table String String :=
  [("http", "HTTP protocol"), ("tcp", "TCP protocol"), ("udp", "UDP protocol"),
    ("arp", "ARP protocol"), ("icmp", "ICMP protocol"), ("dns", "DNS protocol"),
    ("ssl", "SSL/TLS protocol"), ("telnet", "Telnet protocol"), ("tcp.port", "TCP port"),
    ("tcp.flags.syn", "TCP synchronize flag (SYN)"), ("http.host", "HTTP host"),
    ("http.response.code", "HTTP response code"), ("http.request.method", "HTTP request method"),
    ("http.request.uri", "HTTP request URI"), ("http.content_type", "HTTP content type"),
    ("http.content_length", "HTTP content length"), ("http.cookie", "HTTP cookie"),
    ("dns.qry.name", "DNS query name"), ("ssl.handshake.type", "TLS handshake type"),
    ("sctp", "SCTP protocol"), ("sctp.port", "SCTP port"), ("sctp.chan", "SCTP chunk type"),
    ("ipv6", "IPv6 protocol"), ("ipv6.addr", "IPv6 address"), ("ipv6.src", "IPv6 source address"),
    ("ipv6.dst", "IPv6 destination address"), ("icmpv6", "ICMPv6 protocol"),
    ("igmp", "IGMP multicast protocol"), ("ospf", "OSPF routing protocol"),
    ("bgp", "BGP routing protocol"), ("rip", "RIP routing protocol"), ("ftp", "FTP protocol"),
    ("ftp.request.command", "FTP request command"), ("ftp.response.code", "FTP response code"),
    ("smtp", "SMTP protocol"), ("pop", "POP protocol"), ("imap", "IMAP protocol"),
    ("dhcp", "DHCP protocol"), ("dhcp.option.hostname", "DHCP hostname option"),
    ("dhcp.option.dhcp_server_id", "DHCP server identifier option"), ("ntp", "NTP protocol"),
    ("ntp.time", "NTP timestamp"), ("snmp", "SNMP protocol"), ("snmp.version", "SNMP version"),
    ("snmp.community", "SNMP community"), ("smb", "SMB protocol"), ("smb2", "SMB2 protocol"),
    ("rtsp", "RTSP protocol"), ("sip", "SIP protocol"), ("sip.Request-Line", "SIP request line"),
    ("sip.Status-Line", "SIP status line"), ("rtp", "RTP protocol"),
    ("rtp.ssrc", "RTP synchronization source"), ("rtp.payload_type", "RTP payload type"),
    ("mysql", "MySQL protocol"), ("mysql.query", "MySQL query"),
    ("postgresql", "PostgreSQL protocol"), ("redis", "Redis protocol"), ("mqtt", "MQTT protocol"),
    ("mqtt.msgtype", "MQTT message type"), ("modbus", "Modbus protocol"),
    ("modbus.func", "Modbus function code"), ("http2", "HTTP/2 protocol"),
    ("quic", "QUIC protocol"), ("websocket", "WebSocket protocol"), ("coap", "CoAP protocol"),
    ("dtls", "DTLS protocol"), ("ssh", "SSH protocol"), ("ldap", "LDAP protocol"),
    ("radius", "RADIUS protocol"), ("tcp.flags.ack", "TCP acknowledgment flag (ACK)"),
    ("tcp.flags.psh", "TCP push flag (PSH)"), ("tcp.flags.fin", "TCP finish flag (FIN)"),
    ("tcp.flags.rst", "TCP reset flag (RST)"), ("tcp.flags.urg", "TCP urgent flag (URG)"),
    ("tcp.flags.ece", "TCP ECN echo flag (ECE)"),
    ("tcp.flags.cwr", "TCP congestion window reduced flag (CWR)"),
    ("tcp.seq", "TCP sequence number"), ("tcp.ack", "TCP acknowledgment number"),
    ("tcp.window_size", "TCP window size"), ("tcp.len", "TCP payload length"),
    ("udp.port", "UDP port"), ("udp.length", "UDP length"), ("ip.addr", "IP address"),
    ("ip.src", "source IP address"), ("ip.dst", "destination IP address"),
    ("ip.id", "IP identification"), ("ip.ttl", "IP time to live (TTL)"),
    ("ip.proto", "IP protocol number"), ("ip.len", "IP total length"),
    ("ip.hdr_len", "IP header length"), ("ip.dsfield", "IP differentiated services field"),
    ("eth", "Ethernet"), ("eth.src", "source MAC address"), ("eth.dst", "destination MAC address"),
    ("eth.type", "Ethernet type"), ("frame.time", "capture time"), ("frame.number", "frame number"),
    ("frame.interface_id", "capture interface ID"), ("frame.len", "frame length"),
    ("frame.cap_len", "captured length")]

def operators : Table String OperatorLabel :=
  [("==", ⟨.text "==", .text "equals"⟩),
    ("!=", ⟨.text "!=", .text "does not equal"⟩),
    ("contains", ⟨.text "contains", .text "contains"⟩),
    ("matches", ⟨.text "~ (matches)", .text "matches the pattern"⟩),
    (">", ⟨.text ">", .text "is greater than"⟩),
    ("<", ⟨.text "<", .text "is less than"⟩),
    (">=", ⟨.text ">=", .text "is at least"⟩),
    ("<=", ⟨.text "<=", .text "is at most"⟩),
    ("exists", ⟨.text "exists", .text "is present"⟩),
    ("!", ⟨.text "!", .text "is absent"⟩)]

def vocabulary : Table String String :=
  [("and", "and"), ("or", "or"), ("capture", "capture"), ("exclude", "exclude"), ("empty", "empty")]

end DisplayFilter.English
