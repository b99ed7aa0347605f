import DisplayFilter.Document.Value
/-!
# Chinese labels

The bundled label document for descriptions in Chinese. It is read like any other label document, over
the English labels.
-/

namespace DisplayFilter.Chinese

def fields : List (String × String) :=
  [("http", "HTTP 协议"), ("tcp", "TCP 协议"), ("udp", "UDP 协议"), ("arp", "ARP 协议"),
    ("icmp", "ICMP 协议"), ("dns", "DNS 协议"), ("ssl", "SSL/TLS 协议"), ("telnet", "Telnet 协议"),
    ("tcp.port", "TCP 端口"), ("tcp.flags.syn", "TCP 同步包(SYN)"), ("http.host", "HTTP 域名"),
    ("http.response.code", "HTTP 响应码"), ("http.request.method", "HTTP 请求方法"),
    ("http.request.uri", "HTTP 请求的 URL"), ("http.content_type", "HTTP 内容类型"),
    ("http.content_length", "HTTP 数据段长度"), ("http.cookie", "cookie"), ("dns.qry.name", "DNS 查询域名"),
    ("ssl.handshake.type", "TLS 握手类型"), ("sctp", "SCTP 流控制传输协议"), ("sctp.port", "SCTP 端口"),
    ("sctp.chan", "SCTP 块类型"), ("ipv6", "IPv6 协议"), ("ipv6.addr", "IPv6 地址"),
    ("ipv6.src", "源 IPv6 地址"), ("ipv6.dst", "目的 IPv6 地址"), ("icmpv6", "ICMPv6 协议"),
    ("igmp", "IGMP 组播协议"), ("ospf", "OSPF 开放最短路径优先协议"), ("bgp", "BGP 边界网关协议"),
    ("rip", "RIP 路由信息协议"), ("ftp", "FTP 文件传输协议"), ("ftp.request.command", "FTP 请求命令"),
    ("ftp.response.code", "FTP 响应码"), ("smtp", "SMTP 邮件发送协议"), ("pop", "POP 邮件接收协议"),
    ("imap", "IMAP 邮件访问协议"), ("dhcp", "DHCP 动态主机配置协议"), ("dhcp.option.hostname", "DHCP 主机名选项"),
    ("dhcp.option.dhcp_server_id", "DHCP 服务器ID选项"), ("ntp", "NTP 网络时间协议"),
    ("snmp", "SNMP 简单网络管理协议"), ("smb", "SMB 服务器消息块协议"), ("smb2", "SMB2 服务器消息块协议 v2"),
    ("rtsp", "RTSP 实时流传输协议"), ("sip", "SIP 会话初始协议"), ("rtp", "RTP 实时传输协议"),
    ("mysql", "MySQL 数据库协议"), ("postgresql", "PostgreSQL 数据库协议"), ("redis", "Redis 数据库协议"),
    ("mqtt", "MQTT 物联网消息协议"), ("modbus", "Modbus 工业通信协议"), ("http2", "HTTP/2 协议"),
    ("quic", "QUIC 传输协议 (通常用于 HTTP/3)"), ("websocket", "WebSocket 协议"), ("coap", "CoAP 受约束的应用协议"),
    ("dtls", "DTLS 数据报传输层安全协议"), ("ssh", "SSH 安全外壳协议"), ("ldap", "LDAP 轻量级目录访问协议"),
    ("radius", "RADIUS 远程用户拨号认证服务协议"), ("ntp.time", "NTP 时间戳"), ("snmp.version", "SNMP 版本"),
    ("snmp.community", "SNMP 团体名"), ("sip.Request-Line", "SIP 请求行"), ("sip.Status-Line", "SIP 状态行"),
    ("rtp.ssrc", "RTP 同步源标识符"), ("rtp.payload_type", "RTP 载荷类型"), ("mysql.query", "MySQL 查询语句"),
    ("mqtt.msgtype", "MQTT 消息类型"), ("modbus.func", "Modbus 功能码"), ("tcp.flags.ack", "TCP 确认包(ACK)"),
    ("tcp.flags.psh", "TCP 推送包(PSH)"), ("tcp.flags.fin", "TCP 结束包(FIN)"),
    ("tcp.flags.rst", "TCP 重置包(RST)"), ("tcp.flags.urg", "TCP 紧急包(URG)"),
    ("tcp.flags.ece", "TCP ECN 回应标志(ECE)"), ("tcp.flags.cwr", "TCP 拥塞窗口减小标志(CWR)"),
    ("tcp.seq", "TCP 序列号"), ("tcp.ack", "TCP 确认号"), ("tcp.window_size", "TCP 窗口大小"),
    ("tcp.len", "TCP 载荷长度"), ("udp.port", "UDP 端口"), ("udp.length", "UDP 长度"), ("ip.addr", "IP 地址"),
    ("ip.src", "源 IP 地址"), ("ip.dst", "目的 IP 地址"), ("ip.id", "IP 包标识符"), ("ip.ttl", "IP 生存时间(TTL)"),
    ("ip.proto", "IP 上层协议号"), ("ip.len", "IP 总长度"), ("ip.hdr_len", "IP 头部长度"),
    ("ip.dsfield", "IP 服务类型(DSCP/ECN)"), ("eth", "以太网协议"), ("eth.src", "源 MAC 地址"),
    ("eth.dst", "目的 MAC 地址"), ("eth.type", "以太网类型"), ("frame.time", "数据包捕获时间"),
    ("frame.number", "数据包编号"), ("frame.interface_id", "捕获接口 ID"), ("frame.len", "数据包总长度"),
    ("frame.cap_len", "数据包捕获长度")]

def operators : List (String × Value) :=
  [("==", .record [("symbol", .text "=="), ("label", .text "等于")]),
    ("!=", .record [("symbol", .text "!="), ("label", .text "不等于")]),
    ("contains", .record [("symbol", .text "contains"), ("label", .text "包含内容")]),
    ("matches", .record [("symbol", .text "~ (matches)"), ("label", .text "正则匹配")]),
    (">", .record [("symbol", .text ">"), ("label", .text "大于")]),
    ("<", .record [("symbol", .text "<"), ("label", .text "小于")]),
    (">=", .record [("symbol", .text ">="), ("label", .text "大于等于")]),
    ("<=", .record [("symbol", .text "<="), ("label", .text "小于等于")]),
    ("exists", .record [("symbol", .text "exists"), ("label", .text "协议/字段存在")]),
    ("!", .record [("symbol", .text "!"), ("label", .text "排除该协议")])]

def vocabulary : List (String × String) :=
  [("and", "并且"), ("or", "或者"), ("capture", "捕获"), ("exclude", "排除"), ("empty", "空")]

def document : Value :=
  let texts (entries : List (String × String)) : Value :=
    .record (entries.map fun entry => (entry.1, .text entry.2))
  .record [("fields", texts fields), ("operators", .record operators),
    ("vocabulary", texts vocabulary)]

end DisplayFilter.Chinese
